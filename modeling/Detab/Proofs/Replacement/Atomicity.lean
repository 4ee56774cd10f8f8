import Detab.Proofs.Replacement.Stages

set_option relaxedAutoImplicit false
set_option autoImplicit false

/-!
# Old or new, never a mixture

Whoever looks at a file while it is being replaced, or after the process has gone in the middle of
it, finds the old contents or the new ones, and the old mode with either.

## Main results

* `Detab.Replacement.Stage.old_or_new` — what the tree shows at each of the stages.
* `Detab.Replacement.old_or_new_of_cutOff` — **what it shows wherever a replacement is cut off,**
  under any faults.
-/

namespace Detab.Replacement

open FileSystem

variable {fs : FileSystem} {stamp : Stamp} {path : Path} {parent : Place} {name : Name}
  {contents new : ByteArray} {mode : Mode} {moment : Moment}

/-- **What the tree shows at each of the stages of a replacement.**

**Proof sketch.** A draft is beside the file under the temporary name, and whatever is elsewhere is
kept. The file that is overwritten is the one that the path leads to, since a path leads to one file,
and what overwrites it is complete and has the old mode. -/
lemma Stage.old_or_new (wf : fs.WellFormed)
    (hgoal : fs.resolve .toFile path = .ok (parent ++ [name]))
    (hitem : fs.item? (parent ++ [name]) = some (.file contents mode))
    (hstage : Stage fs stamp path new moment) :
    moment.world.fs.resolve .toFile path = .ok (parent ++ [name]) ∧
    (moment.world.fs.item? (parent ++ [name]) = some (.file contents mode) ∨
      (moment.world.fs.item? (parent ++ [name]) = some (.file new mode) ∧
        ∃ source target, .rename source target ∈ moment.asked)) ∧
    ∀ place, place ≠ parent ++ [name] → place ≠ parent ++ [temporaryName stamp name] →
      moment.world.fs.item? place = fs.item? place := by
  obtain ⟨id, hleads⟩ := exists_leadsTo_of_item? hgoal hitem
  cases hstage with
  | untouched h =>
    rw [h]
    exact ⟨hgoal, .inl hitem, fun _ _ _ => rfl⟩
  | @drafting temporary parent' _ _ t file htemporary room h =>
    obtain ⟨rfl, rfl⟩ := lastStep_of_temporary? wf htemporary hgoal hleads.shape room.lastStep
    have hne : parent' ++ [name] ≠ parent' ++ [temporaryName stamp name] := by
      intro heq
      have hname : name = temporaryName stamp name := by simpa using heq
      exact temporaryName_ne stamp name hname.symm
    rw [h]
    refine ⟨(room.keeps_draft file).resolve hgoal, .inl ?_, fun place _ hplace => ?_⟩
    · rw [room.item?_draft wf, if_neg hne, hitem]
    · rw [room.item?_draft wf, if_neg hplace]
  | replaced hdone hasked =>
    obtain ⟨parent', name', id', old, hold, h⟩ := hdone
    obtain ⟨hplace, rfl, rfl⟩ := hleads.canonical.unique hold
    have hnode := hold.node
    rw [h, hplace]
    refine ⟨?_, .inr ⟨?_, hasked⟩, fun place hne _ => ?_⟩
    · rw [← hplace]
      exact (keeps_overwrite hnode _).resolve hgoal
    · rw [item?_overwrite hnode wf, if_pos rfl]
    · rw [item?_overwrite hnode wf, if_neg (hplace ▸ hne)]
  | @withdrawn file h =>
    have hsame : fs.SameTree (fs.withFile file) := wf.sameTree_withFile file
    have hkeeps : fs.Keeps (fs.withFile file) := ⟨rfl, fun _ _ hshape => hshape⟩
    rw [h]
    exact ⟨hkeeps.resolve hgoal, .inl ((hsame.item _).trans hitem),
      fun place _ _ => hsame.item place⟩

/-- **Wherever a replacement is cut off,** under any faults, the path leads to the same place as
before, and what is there is the old file or, once the draft has been given its name, the new
contents with the old mode. Every other place, but for that of the temporary file, holds what it
held.

**Proof sketch.** What holds throughout a replacement, by `throughout_replace`, holds wherever it is
cut off: it is at one of its stages, and each stage shows the old file or, after the renaming, the
new one. -/
theorem old_or_new_of_cutOff {world : World} (wf : world.fs.WellFormed) (chunks : List ByteArray)
    (hgoal : world.fs.resolve .toFile path = .ok (parent ++ [name]))
    (hitem : world.fs.item? (parent ++ [name]) = some (.file contents mode))
    (hfree : world.fs.entry? (parent ++ [temporaryName world.session.stamp.1 name]) = none)
    (faults : Faults) (n : Nat)
    (hmoment : Script.cutOff faults n (replace path chunks).run (.start world) = moment) :
    moment.world.fs.resolve .toFile path = .ok (parent ++ [name]) ∧
    (moment.world.fs.item? (parent ++ [name]) = some (.file contents mode) ∨
      (moment.world.fs.item? (parent ++ [name]) = some (.file (joined chunks) mode) ∧
        ∃ source target, .rename source target ∈ moment.asked)) ∧
    ∀ place, place ≠ parent ++ [name] →
      place ≠ parent ++ [temporaryName world.session.stamp.1 name] →
        moment.world.fs.item? place = world.fs.item? place := by
  obtain ⟨id, hleads⟩ := exists_leadsTo_of_item? hgoal hitem
  have hvacant : Free world path :=
    free_of_entry?_eq_none wf hgoal hleads.shape hfree
  have hstart : (Moment.start world).world = world := rfl
  have hstage := (throughout_replace wf path chunks hstart).cutOff faults n hvacant
  rw [hmoment] at hstage
  exact hstage.old_or_new wf hgoal hitem

/-- A replacement through a symbolic link that is cut off while the draft is written. -/
theorem old_or_new_of_cutOff_link :
    let world : World := ⟨aliased ⟨pack [9], 0o600⟩, .start 7 (fun n => n) none⟩
    let moment := Script.cutOff (fun _ => none) 6
      (replace (utf8 "d/b.java") [pack [32], pack [32]]).run (.start world)
    moment.world.fs.resolve .toFile (utf8 "d/b.java") = .ok [utf8 "d", utf8 "a.java"] ∧
      moment.world.fs.item? [utf8 "d", utf8 "c"] = some (.file (pack [9]) 0o600) := by
  intro world moment
  have hgoal : world.fs.resolve .toFile (utf8 "d/b.java") = .ok ([utf8 "d"] ++ [utf8 "a.java"]) := by
    decide +kernel
  have hitem : world.fs.item? ([utf8 "d"] ++ [utf8 "a.java"]) = some (.file (pack [9]) 0o600) := by
    decide +kernel
  have hfree : world.fs.entry? ([utf8 "d"] ++
      [temporaryName world.session.stamp.1 (utf8 "a.java")]) = none := by
    decide +kernel
  obtain ⟨hresolve, -, hothers⟩ := old_or_new_of_cutOff (wellFormed_aliased ⟨pack [9], 0o600⟩)
    [pack [32], pack [32]] hgoal hitem hfree (fun _ => none) 6 rfl
  have hkept : moment.world.fs.item? [utf8 "d", utf8 "c"] = world.fs.item? [utf8 "d", utf8 "c"] :=
    hothers _ (by decide +kernel) (by decide +kernel)
  have hbefore : world.fs.item? [utf8 "d", utf8 "c"] = some (.file (pack [9]) 0o600) := by
    decide +kernel
  exact ⟨hresolve, hkept.trans hbefore⟩

end Detab.Replacement
