import Detab.Conversion
import Detab.Proofs.Expansion.Copying
import Detab.Proofs.Replacement.Stages

set_option relaxedAutoImplicit false
set_option autoImplicit false

/-!
# Converting one file

A conversion of one file reads it, expands its contents, and replaces the file if there was a tab.
Either it succeeds, and the file is the expansion of what it was, or it fails, and the tree is the
same as before.

## Main definitions

* `Detab.Conversion.Converted` — the tree after a file has been converted.

## Main results

* `Detab.Conversion.throughout_convertFile` — how the conversion of a file ends, under any faults.
* `Detab.Conversion.sameTree_of_failed` — **a replacement or a conversion that fails leaves the same
  tree.**
-/

namespace Detab.Conversion

open FileSystem Replacement Expansion

variable {platform : Platform} {width : Width} {path : Path} {world : World}

/-- The expansion of some contents. -/
def expanded (width : Width) (contents : ByteArray) : ByteArray :=
  pack (substitute width.toNat (unpack contents))

/-- What is written for an expansion is that expansion, whatever the chunks are. -/
lemma joined_chunks_expand {contents result : ByteArray}
    (h : expand platform.canReserve contents width = .ok (some result)) :
    joined (platform.chunks result) = expanded width contents := by
  rw [joined, platform.join_chunks, (expand_eq_some h).2, expanded]

/-- **The tree after a file has been converted,** and whether it had a tab. -/
inductive Converted (width : Width) (fs : FileSystem) (path : Path) : Bool → FileSystem → Prop
  /-- Without a tab nothing is done. -/
  | kept {goal : Place} {id : FileId} {file : File} :
      fs.LeadsTo .toFile path goal id file → file.mode.canRead = true →
        tab ∉ unpack file.contents → Converted width fs path false fs
  /-- With a tab the file is overwritten. -/
  | rewritten {parent : Place} {name : Name} {id : FileId} {file : File} :
      fs.LeadsTo .toFile path (parent ++ [name]) id file → file.mode.canRead = true →
        tab ∈ unpack file.contents →
          Converted width fs path true
            (fs.overwrite parent name ⟨expanded width file.contents, file.mode⟩)

/-- A replacement of what was read, by its expansion, is a conversion. -/
lemma converted_of_replaced {contents : ByteArray} {fs fs' : FileSystem}
    (hread : fs.read path = .ok contents) (htab : tab ∈ unpack contents)
    (h : Replaced fs path (expanded width contents) fs') : Converted width fs path true fs' := by
  obtain ⟨goal, id, file, hleads, hmode, rfl⟩ := read_eq_ok_iff.mp hread
  obtain ⟨parent, name, id', old, hold, rfl⟩ := h
  obtain ⟨rfl, rfl, rfl⟩ := hleads.canonical.unique hold
  exact .rewritten hleads hmode htab

/-- **How the conversion of a file ends.**

**Proof sketch.** Reading and expanding change nothing. What is then given to the replacement is the
expansion of what was read. -/
lemma throughout_convertFile (wf : world.fs.WellFormed) (platform : Platform) (width : Width)
    (path : Path) {moment : Moment} (h : moment.world = world) :
    (convertFile platform path width).Throughout (fun _ => True)
      (fun modified moment => Converted width world.fs path modified moment.world.fs)
      (fun _ moment => Undone world path moment) moment := by
  refine Action.throughout_bind (Action.throughout_ofScript ?_)
  refine Script.throughout_request (.read path) trivial fun fault => ⟨trivial, ?_⟩
  cases fault with
  | some fault => exact undone_of_eq h
  | none =>
    change Action.AtEnd _ _ (moment.world.fs.read path) _
    rw [h]
    cases hread : world.fs.read path with
    | error e => exact undone_of_eq h
    | ok contents =>
      set moment' : Moment := (moment.after none (.read path)).2
      have h' : moment'.world = world := h
      dsimp only [Action.AtEnd]
      rcases hexpand : expand platform.canReserve contents width with cause | _ | result
      · exact Action.throughout_throw trivial (undone_of_eq h')
      · refine Action.throughout_bind (Action.throughout_lift ?_)
        refine Script.throughout_request (.log _) trivial fun fault => ⟨trivial, ?_⟩
        refine Action.throughout_pure trivial ?_
        have htab := (expand_eq_none_iff platform.canReserve contents width).mp hexpand
        obtain ⟨goal, id, file, hleads, hmode, rfl⟩ := read_eq_ok_iff.mp hread
        have hafter : (moment'.after fault
            (.log ⟨.debug, s!"No tabs in {Utf8.display path}"⟩)).2.world.fs =
              moment'.world.fs := by
          cases fault <;> rfl
        rw [hafter, h']
        exact .kept hleads hmode htab
      · have hreplace := (throughout_replace wf path (platform.chunks result) h').weaken
          fun _ _ => trivial
        refine Action.throughout_bind (Action.throughout_ofScript (hreplace.mono ?_))
        intro ended moment'' _ hended
        cases ended with
        | error e => exact hended
        | ok _ =>
          refine Action.throughout_pure trivial ?_
          have hdone : Replaced world.fs path (joined (platform.chunks result)) moment''.world.fs :=
            hended
          rw [joined_chunks_expand hexpand] at hdone
          exact converted_of_replaced hread (expand_eq_some hexpand).1 hdone

/-- **A replacement or a conversion that fails leaves the same tree,** whichever of its requests it
fails at, if nothing was under the temporary path that it chooses. -/
theorem sameTree_of_failed (wf : world.fs.WellFormed) (hfree : Free world path)
    (platform : Platform) (width : Width) (chunks : List ByteArray) (faults : Faults) :
    (∀ e moment, (replace path chunks).run.runUnder faults (.start world) = (.error e, moment) →
      world.fs.SameTree moment.world.fs) ∧
    ∀ e moment, (convertFile platform path width).run.runUnder faults (.start world) =
      (.error e, moment) → world.fs.SameTree moment.world.fs := by
  have hstart : (Moment.start world).world = world := rfl
  refine ⟨fun e moment h => ?_, fun e moment h => ?_⟩
  · have hend := (throughout_replace wf path chunks hstart).runUnder faults
    rw [h] at hend
    exact (hend hfree).sameTree wf
  · have hend := (throughout_convertFile wf platform width path hstart).runUnder faults
    rw [h] at hend
    exact (hend hfree).sameTree wf

/-- A replacement through a symbolic link whose draft does not get its name. -/
theorem sameTree_of_failed_rename :
    let world : World := ⟨aliased ⟨pack [9], 0o600⟩, .start 7 (fun n => n) none⟩
    let faults : Faults := fun n => if n = 8 then some ⟨.busy, 0⟩ else none
    ∃ moment, (replace (utf8 "d/b.java") [pack [32]]).run.runUnder faults (.start world) =
        (.error (.request .busy), moment) ∧ world.fs.SameTree moment.world.fs := by
  intro world faults
  have hgoal : world.fs.resolve .toFile (utf8 "d/b.java") = .ok ([utf8 "d"] ++ [utf8 "a.java"]) := by
    decide +kernel
  have hfile : world.fs.shape? ([utf8 "d"] ++ [utf8 "a.java"]) = some .file := by
    decide +kernel
  have hnone : world.fs.entry? ([utf8 "d"] ++
      [temporaryName world.session.stamp.1 (utf8 "a.java")]) = none := by
    decide +kernel
  have wf : world.fs.WellFormed := wellFormed_aliased ⟨pack [9], 0o600⟩
  have hfailed : ((replace (utf8 "d/b.java") [pack [32]]).run.runUnder faults (.start world)).1 =
      .error (.request .busy) := by
    decide +kernel
  exact ⟨_, Prod.ext hfailed rfl, (sameTree_of_failed wf (free_of_entry?_eq_none wf hgoal hfile hnone)
    .standard 4 [pack [32]] faults).1 _ _ (Prod.ext hfailed rfl)⟩

end Detab.Conversion
