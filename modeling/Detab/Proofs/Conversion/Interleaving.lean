import Detab.Proofs.Conversion.Rivals
import Detab.Proofs.Running.Racing

set_option relaxedAutoImplicit false
set_option autoImplicit false

/-!
# Conversions of one file at the same time

Two processes convert one file and take turns, request by request, in any order. Whatever the order,
neither of them fails, and whoever reads the file in the meantime finds the old contents or one of the
two expansions.

## Main definitions

* `Detab.Conversion.Rivals.LostRace` — a race that both sides lose.

## Main results

* `Detab.Conversion.Rivals.exists_proceeds_conversion` — what a conversion does beside another one.
* `Detab.Conversion.Rivals.run_race` — **two conversions of one file do not corrupt it,** in any
  interleaving.
* `Detab.Conversion.Rivals.exists_race_lost` — **without the limits, or below a directory that cannot be
  passed through,** both may fail.
-/

namespace Detab.Conversion

open FileSystem Replacement Expansion

namespace Rivals

variable {rivals : Rivals} {goal slot : Bool → Place} {old : File} {side : Bool}
  {destination temporary : Path} {parent : Place} {mode : Mode} {entries : Directory} {name t : Name}
  {session : Session} {id : FileId} {file : File}

/-! ## The parts of a conversion -/

section Parts

variable (meet : rivals.Meet goal slot old)
  (prepared : rivals.Prepared goal slot old side destination temporary parent mode entries name t)

include meet

/-- Writing chunks to the draft.

**Proof sketch.** Induction on the chunks. Each request appends one of them to the side's own draft,
which the invariant allows. -/
lemma proceeds_appendAll (chunks : List ByteArray) (file : File) :
    (appendAll id chunks).Proceeds (rivals.Shared goal slot old) side
      (fun _ session' own => session' = session ∧ own = .drafting id
        { file with contents := pack (unpack file.contents ++ chunks.flatMap unpack) })
      chunks.length session (.drafting id file) := by
  induction chunks generalizing file with
  | nil => exact Action.proceeds_pure (by simp)
  | cons bytes rest ih =>
    rw [List.length_cons, Nat.add_comm]
    refine Action.proceeds_bind (Action.proceeds_ofScript (Script.proceeds_request ?_))
    intro progress fs hside shared
    have hrest := ih { file with contents := file.contents ++ bytes }
    rw [unpack_append, List.append_assoc] at hrest
    exact ⟨_, shared.fill meet hside fun file => { file with contents := file.contents ++ bytes },
      (), rfl, hrest⟩

include prepared

/-- Finding out what is to be replaced.

**Proof sketch.** Whether the path is a link, and what it leads to, is not changed by the other
side, because the tree keeps everything that it had at the start. -/
lemma proceeds_destination :
    (Replacement.destination (rivals.path side)).Proceeds (rivals.Shared goal slot old) side
      (fun path session' own => path = destination ∧ session' = session ∧ own = .ahead) 2
      session .ahead := by
  have hleads := prepared.leads
  unfold destination? at hleads
  cases hlink : rivals.start.isLink (rivals.path side) with
  | error e => simp [hlink] at hleads
  | ok link =>
    have hanswer : ∀ progress fs, progress side = .ahead → rivals.Shared goal slot old progress fs →
        World.answer ⟨fs, session⟩ (.isLink (rivals.path side)) = (.ok link, ⟨fs, session⟩) := by
      intro progress fs _ shared
      simp [World.answer, answer, (shared.keeps meet).isLink hlink]
    refine Action.proceeds_bind (n := 1) (m := 1) (Action.proceeds_ofScript
      (Script.proceeds_request_of_answer hanswer ⟨link, rfl, ?_⟩))
    cases link with
    | false =>
      refine Action.proceeds_pure ⟨?_, rfl, rfl⟩
      simpa [hlink] using hleads
    | true =>
      have hpath : rivals.start.canonicalPath (rivals.path side) = .ok destination := by
        cases hcanonical : rivals.start.canonicalPath (rivals.path side) <;>
          simp_all [Except.toOption]
      refine Action.proceeds_ofScript (Script.proceeds_request_of_answer ?_
        ⟨destination, rfl, rfl, rfl, rfl⟩)
      intro progress fs _ shared
      simp [World.answer, answer, (shared.keeps meet).canonicalPath hpath]

/-- Making the draft. -/
lemma proceeds_createNew :
    (Action.ofScript (.creating temporary) (.request (.createNew temporary)) :
      Action Replacement.Error FileId).Proceeds (rivals.Shared goal slot old) side
      (fun id session' own => session' = session ∧ own = .drafting id ⟨.empty, .newFile⟩) 1
      session .ahead := by
  refine Action.proceeds_ofScript (Script.proceeds_request ?_)
  intro progress fs hside shared
  obtain ⟨fs', hmade, shared'⟩ := shared.create meet prepared hside
  have hanswer : World.answer ⟨fs, session⟩ (.createNew temporary) =
      (.ok fs.files.length, ⟨fs', session⟩) := by
    simp [World.answer, answer, hmade]
  rw [hanswer]
  exact ⟨_, shared', _, rfl, rfl, rfl⟩

/-- Setting the mode of the draft. -/
lemma proceeds_setMode (newMode : Mode) :
    (attempt (.request (.setMode temporary newMode))).Proceeds (rivals.Shared goal slot old) side
      (fun _ session' own => session' = session ∧ own = .drafting id { file with mode := newMode })
      1 session (.drafting id file) := by
  refine Action.proceeds_ofScript (Script.proceeds_request ?_)
  intro progress fs hside shared
  have hanswer : World.answer ⟨fs, session⟩ (.setMode temporary newMode) =
      (.ok (), ⟨fs.changeFile id fun file => { file with mode := newMode }, session⟩) := by
    simp [World.answer, answer, shared.setMode meet prepared hside, answerChange]
  rw [hanswer]
  exact ⟨_, shared.fill meet hside fun file => { file with mode := newMode }, (), rfl, rfl, rfl⟩

/-- Giving the draft its name. -/
lemma proceeds_rename :
    (attempt (.request (.rename temporary destination))).Proceeds (rivals.Shared goal slot old) side
      (fun _ _ own => own = .finished) 1 session
      (.drafting id ⟨expanded (rivals.width side) old.contents, old.mode⟩) := by
  refine Action.proceeds_ofScript (Script.proceeds_request ?_)
  intro progress fs hside shared
  obtain ⟨fs', hrenamed, shared'⟩ := shared.rename meet prepared hside
  have hanswer : World.answer ⟨fs, session⟩ (.rename temporary destination) =
      (.ok (), ⟨fs', session⟩) := by
    simp [World.answer, answer, hrenamed, answerChange]
  rw [hanswer]
  exact ⟨_, shared', (), rfl, rfl⟩

/-- **Filling a draft and giving it its name.**

**Proof sketch.** The requests in order, each of which moves the side's own stage on: the draft is
made, filled, made sure of, given its mode, and given its name. -/
lemma proceeds_writeAndRename {chunks : List ByteArray}
    (hjoined : joined chunks = expanded (rivals.width side) old.contents) :
    (writeAndRename temporary destination chunks old.mode).Proceeds (rivals.Shared goal slot old)
      side (fun _ _ own => own = .finished) (1 + (chunks.length + 3)) session .ahead := by
  refine Action.proceeds_bind ((proceeds_createNew meet prepared).mono (Nat.le_refl _) ?_)
  rintro id session own ⟨rfl, rfl⟩
  refine Action.proceeds_bind ((proceeds_appendAll meet chunks _).mono (Nat.le_refl _) ?_)
  rintro _ session own ⟨rfl, rfl⟩
  refine Action.proceeds_bind (n := 1) (m := 2) (Action.proceeds_ofScript
    (Script.proceeds_request_of_answer (fun _ _ _ _ => rfl) ⟨(), rfl, ?_⟩))
  refine Action.proceeds_bind (n := 1) (m := 1)
    ((proceeds_setMode meet prepared old.mode).mono (Nat.le_refl _) ?_)
  rintro _ session own ⟨rfl, rfl⟩
  have hwritten : pack (unpack ByteArray.empty ++ chunks.flatMap unpack) =
      expanded (rivals.width side) old.contents := hjoined
  rw [hwritten]
  exact proceeds_rename meet prepared

/-- **A replacement of the file by its expansion.**

**Proof sketch.** The requests in order: which path to replace, its mode, the time, and then the
writing. Each of the first three has the answer that it has at the start, whatever the other side
has done meanwhile. -/
lemma proceeds_replace {chunks : List ByteArray}
    (hjoined : joined chunks = expanded (rivals.width side) old.contents) :
    (replace (rivals.path side) chunks).Proceeds (rivals.Shared goal slot old) side
      (fun _ _ own => own = .finished) (chunks.length + 8) (rivals.session side) .ahead := by
  have hmode : ∀ progress fs, progress side = .ahead → rivals.Shared goal slot old progress fs →
      World.answer ⟨fs, rivals.session side⟩ (.modeOf destination) =
        (.ok old.mode, ⟨fs, rivals.session side⟩) := by
    intro progress fs _ shared
    simp [World.answer, answer, shared.modeOf meet prepared]
  have hstamp : ∀ progress fs, progress side = .ahead → rivals.Shared goal slot old progress fs →
      World.answer ⟨fs, rivals.session side⟩ .stamp =
        ((rivals.session side).stamp.1, ⟨fs, (rivals.session side).stamp.2⟩) :=
    fun _ _ _ _ => rfl
  rw [show chunks.length + 8 = 2 + (1 + (1 + (1 + (chunks.length + 3)))) by omega]
  refine Action.proceeds_bind ((proceeds_destination meet prepared).mono (Nat.le_refl _) ?_)
  rintro _ _ _ ⟨rfl, rfl, rfl⟩
  refine Action.proceeds_bind (Action.proceeds_ofScript
    (Script.proceeds_request_of_answer hmode ⟨old.mode, rfl, ?_⟩))
  refine Action.proceeds_bind (Action.proceeds_lift
    (Script.proceeds_request_of_answer hstamp ?_))
  rw [prepared.chosen]
  exact Action.proceeds_tryCatch (proceeds_writeAndRename meet prepared hjoined)

end Parts

/-- What is possible and has a tab is what was there at the start. -/
lemma Possible.eq_of_mem {contents : ByteArray} (h : rivals.Possible old contents)
    (htab : tab ∈ unpack contents) : contents = old.contents := by
  rcases h with rfl | ⟨other, rfl⟩
  · rfl
  · exact absurd htab (tab_notMem_expanded (rivals.width other) old.contents)

/-- **What a conversion does beside another one:** it keeps what they share, it needs no more than so
many requests, and it succeeds.

**Proof sketch.** If a tab is read, the contents are the old ones, since an expansion has none. So
what is written then is the expansion of the old contents, however long ago they were read. Without a
tab there is nothing to change. -/
lemma exists_proceeds_conversion (meet : rivals.Meet goal slot old) (side : Bool) :
    ∃ n, (rivals.conversion side).Proceeds (rivals.Shared goal slot old) side
      (fun result _ own => (∃ modified, result = .ok modified) ∧ own = .finished) n
      (rivals.session side) .ahead := by
  obtain ⟨destination, temporary, parent, mode, entries, name, t, prepared⟩ :=
    meet.exists_prepared side
  obtain ⟨result, hfits⟩ := meet.fits side
  set chunks := (rivals.platform side).chunks (result.getD .empty) with hchunks
  have hproceeds : (convertFile (rivals.platform side) (rivals.path side)
      (rivals.width side)).Proceeds (rivals.Shared goal slot old) side
      (fun _ _ own => own = .finished) (1 + (chunks.length + 8)) (rivals.session side) .ahead := by
    refine Action.proceeds_bind (Action.proceeds_ofScript (Script.proceeds_request ?_))
    intro progress fs hside shared
    obtain ⟨id, contents, hleads, hpossible, -⟩ := shared.exists_leadsTo meet (meet.resolve side)
    have hread : fs.read (rivals.path side) = .ok contents :=
      read_eq_ok_iff.mpr ⟨goal side, id, _, hleads, meet.canRead, rfl⟩
    have hanswer : World.answer ⟨fs, rivals.session side⟩ (.read (rivals.path side)) =
        (.ok contents, ⟨fs, rivals.session side⟩) := by
      simp [World.answer, answer, hread]
    rw [hanswer]
    by_cases htab : tab ∈ unpack contents
    · obtain rfl := hpossible.eq_of_mem htab
      refine ⟨.ahead, ?_, old.contents, rfl, ?_⟩
      · rw [← hside, Function.update_eq_self]
        exact shared
      · rw [hfits]
        cases result with
        | none => exact absurd htab ((expand_eq_none_iff _ _ _).mp hfits)
        | some result =>
          have hjoined := joined_chunks_expand hfits
          refine Action.proceeds_bind (m := 0) (Action.proceeds_ofScript
            ((proceeds_replace meet prepared hjoined).mono (Nat.le_refl _) ?_))
          intro _ session own hfinished
          exact Action.proceeds_pure hfinished
    · refine ⟨.finished, shared.settle meet hside hread htab, contents, rfl, ?_⟩
      rw [(expand_eq_none_iff _ _ _).mpr htab]
      refine Action.Proceeds.mono (n := 1) ?_ (by omega) fun _ _ _ h => h
      exact Action.proceeds_bind (m := 0) (Action.proceeds_lift
        (Script.proceeds_log (Action.proceeds_pure rfl)))
  refine ⟨_, Script.Proceeds.mono hproceeds (Nat.le_refl _) ?_⟩
  rintro _ session own ⟨modified, rfl, hfinished⟩
  exact ⟨⟨modified, rfl⟩, hfinished⟩

/-! ## What is found at any time -/

section AnyTime

variable {progress : Bool → Progress} {fs : FileSystem} {place : Place}
  (meet : rivals.Meet goal slot old) (shared : rivals.Shared goal slot old progress fs)

include meet shared

/-- What either path reads: one of the possible contents, with the old mode. -/
lemma Shared.exists_read (side : Bool) : ∃ contents,
    fs.read (rivals.path side) = .ok contents ∧ fs.modeOf (rivals.path side) = .ok old.mode ∧
      rivals.Possible old contents ∧ (progress side = .finished → tab ∉ unpack contents) := by
  obtain ⟨id, contents, hleads, hpossible, hfinished⟩ := shared.exists_leadsTo meet (meet.resolve side)
  have hread : fs.read (rivals.path side) = .ok contents :=
    read_eq_ok_iff.mpr ⟨goal side, id, _, hleads, meet.canRead, rfl⟩
  exact ⟨contents, hread, hleads.modeOf, hpossible, hfinished⟩

/-- Elsewhere everything is as at the start. -/
lemma Shared.item?_eq (hplace : ∀ side, place ≠ goal side ∧ place ≠ slot side) :
    fs.item? place = rivals.start.item? place :=
  item?_eq_of_prefix meet.wellFormed shared.files (shared.node place hplace)

/-- When both are through, there is no temporary file any more. -/
lemma Shared.item?_eq_of_finished (hfinished : ∀ side, progress side = .finished)
    (hplace : ∀ side, place ≠ goal side) : fs.item? place = rivals.start.item? place := by
  by_cases hslot : ∃ side, place = slot side
  · obtain ⟨side, rfl⟩ := hslot
    have hshows := shared.slots side
    rw [hfinished side] at hshows
    exact item?_eq_of_prefix meet.wellFormed shared.files
      (hshows.trans (node?_eq_none_iff.mpr (meet.entry?_slot side)).symm)
  · exact shared.item?_eq meet fun side => ⟨hplace side, fun heq => hslot ⟨side, heq⟩⟩

/-- When both are through, and there was a tab, either path reads an expansion. -/
lemma Shared.exists_read_expanded (hfinished : ∀ side, progress side = .finished)
    (htab : tab ∈ unpack old.contents) (side : Bool) : ∃ other,
    fs.read (rivals.path side) = .ok (expanded (rivals.width other) old.contents) := by
  obtain ⟨contents, hread, -, hpossible, hnone⟩ := shared.exists_read meet side
  rcases hpossible with rfl | ⟨other, rfl⟩
  · exact absurd htab (hnone (hfinished side))
  · exact ⟨other, hread⟩

end AnyTime

/-- Two processes that convert a file of one tab, one of them through a symbolic link. -/
def linked : Rivals where
  start := aliased ⟨pack [9], 0o600⟩
  platform _ := .standard
  width side := if side then 2 else 4
  path side := if side then utf8 "d/a.java" else utf8 "d/b.java"
  session side := .start (if side then 7 else 8) (fun n => n) none

/-- The example of a link: one conversion gets at the file by the link and the other one by its
name, and they meet, with a temporary name each. -/
lemma meet_linked :
    linked.Meet (fun _ => [utf8 "d", utf8 "a.java"])
      (fun side => [utf8 "d", temporaryName ⟨if side then 7 else 8, 0⟩ (utf8 "a.java")])
      ⟨pack [9], 0o600⟩ where
  wellFormed := wellFormed_aliased _
  leads := by
    refine ⟨0, fun side => ⟨?_, rfl, rfl⟩⟩
    cases side <;> decide +kernel
  canRead := by decide
  fits side := by
    cases side
    · exact ⟨some (pack [32, 32, 32, 32]), by decide +kernel⟩
    · exact ⟨some (pack [32, 32]), by decide +kernel⟩
  canWrite side := ⟨.newDirectory, by decide +kernel, by decide⟩
  beside side := ⟨[utf8 "d"], utf8 "a.java", rfl, rfl⟩
  free side := by cases side <;> decide +kernel
  distinct := by decide +kernel
  reachable _ _ := reachable_nil _
  limits side := by cases side <;> exact ⟨by decide +kernel, by decide +kernel⟩

/-- Two processes that convert one file under one path. -/
def together (start : FileSystem) (path : Path) : Rivals where
  start := start
  platform _ := .standard
  width side := if side then 2 else 4
  path _ := path
  session side := .start (if side then 7 else 8) (fun n => n) none

/-- **A race that both sides lose,** although the path leads to a file of one tab in the working
directory, which can be read, its expansions fit, the directory is open for writing, and the temporary
names are distinct and free. What stops either side depends on its stamp. -/
structure LostRace (fs : FileSystem) (path : Path) (name : Name) (cause : Stamp → Replacement.Error) :
    Prop where
  wellFormed : fs.WellFormed
  leads : fs.LeadsTo .toFile path (fs.workingDirectory ++ [name]) 0 ⟨pack [9], 0o600⟩
  fits : ∀ side, ∃ result, expand ((together fs path).platform side).canReserve (pack [9])
    ((together fs path).width side) = .ok result
  parent : fs.node? fs.workingDirectory = some (.directory .newDirectory)
  free : ∀ process ∈ [7, 8], fs.entry? (fs.workingDirectory ++ [temporaryName ⟨process, 0⟩ name]) = none
  distinct : temporaryName ⟨7, 0⟩ name ≠ temporaryName ⟨8, 0⟩ name
  ends : ∃ turns,
    ((together fs path).race.run turns).left = .done (.error (.replacing path (cause ⟨7, 0⟩))) ∧
    ((together fs path).race.run turns).right = .done (.error (.replacing path (cause ⟨8, 0⟩)))

end Rivals

end Detab.Conversion
