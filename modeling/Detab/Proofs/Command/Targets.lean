import Detab.Command.Run
import Detab.Proofs.Conversion.Repeating
import Mathlib.Algebra.GroupWithZero.Nat

set_option relaxedAutoImplicit false
set_option autoImplicit false

/-!
# Targets in any order

Targets are converted one after the other, and a target may be named twice, be below another one, or
lead to the same files. What one conversion has done changes nothing for the paths that the next
target stands for. So a run over targets that succeeds converts one list of paths, which is known
before the run, and what it makes of the tree depends only on the places that these paths lead to.

## Main results

* `Detab.Command.convertTargets_eq_map` — converting targets is converting each of them.
* `Detab.Command.succeedsAll_of_mapM` — **a run over targets** converts the paths that they stand for
  in the tree as it was at first.
* `Detab.Conversion.SucceedsAll.item?_unique` — conversions of other paths that lead to the same places
  come to the same end.
* `Detab.Command.item?_of_convertTargets` — **the order of targets does not count,** and neither does
  how often they are named.
-/

namespace Detab

open FileSystem

namespace Conversion

variable {platform : Platform} {width : Width} {paths paths' : List Path} {count count' : Nat}
  {fs fs' fs'' : FileSystem}

/-- **Conversions of other paths that lead to the same places** come to the same end, and have changed
as many files.

**Proof sketch.** Both trees are expansions of the first one, at the places that the paths reach,
and these places are the same. The count is the number of places that hold something else than
before, so it is read off the trees. -/
lemma SucceedsAll.item?_unique (wf : fs.WellFormed)
    (hreached : ∀ place, Reached fs paths place ↔ Reached fs paths' place)
    (h : SucceedsAll platform width fs paths count fs')
    (h' : SucceedsAll platform width fs paths' count' fs'') :
    (∀ place, fs''.item? place = fs'.item? place) ∧ count = count' := by
  have hexpands := h.expands wf
  have hexpands' := h'.expands wf
  have hitem : ∀ place, fs''.item? place = fs'.item? place := by
    intro place
    by_cases hplace : Reached fs paths place
    · rw [hexpands.item_of_reached place hplace,
        hexpands'.item_of_reached place ((hreached place).mp hplace)]
    · rw [hexpands.item_of_not place hplace,
        hexpands'.item_of_not place (mt (hreached place).mpr hplace)]
  obtain ⟨touched, htouched, rfl⟩ := h.exists_touched wf
  obtain ⟨touched', htouched', rfl⟩ := h'.exists_touched wf
  have hsame : touched = touched' := by
    ext place
    rw [htouched, htouched', hitem]
  exact ⟨hitem, congrArg Finset.card hsame⟩

end Conversion

namespace Command

open Conversion

variable {platform : Platform} {config : Config} {targets targets' : List Path}
  {summaries : List Summary} {fs : FileSystem} {world world' : World} {session session' : Session}

/-- Converting targets is converting each of them. -/
lemma convertTargets_eq_map (platform : Platform) (config : Config) (targets : List Path) :
    convertTargets platform config targets =
      (fun _ => ()) <$> targets.mapM (convert platform config) := by
  induction targets with
  | nil => simp [convertTargets]
  | cons target rest ih => simp [convertTargets, ih]

/-- A run over targets that succeeds, with its summaries. -/
lemma exists_summaries
    (h : (convertTargets platform config targets).run.run world = (.ok (), world')) :
    ∃ summaries,
      (targets.mapM (convert platform config)).run.run world = (.ok summaries, world') := by
  rw [convertTargets_eq_map, map_eq_pure_bind] at h
  obtain ⟨summaries, world₁, hrun, hend⟩ := Action.run_bind_eq_ok h
  obtain ⟨-, rfl⟩ := Prod.mk.inj hend
  exact ⟨summaries, hrun⟩

/-- **A run over targets** converts the paths that they stand for in the tree as it was at first.

**Proof sketch.** Induction on the targets. The first conversion changes nothing for walks, so the
other targets stand for the paths that they stood for. -/
lemma succeedsAll_of_mapM (wf : world.fs.WellFormed)
    (h : (targets.mapM (convert platform config)).run.run world = (.ok summaries, world')) :
    SucceedsAll platform config.width world.fs
      (targets.flatMap (matched world.fs config.pattern)) (summaries.map Summary.modified).sum
      world'.fs := by
  induction targets generalizing world summaries with
  | nil =>
    rw [List.mapM_nil] at h
    obtain ⟨hsummaries, rfl⟩ := Prod.mk.inj h
    obtain rfl : [] = summaries := Except.ok.inj hsummaries
    exact .nil _
  | cons target rest ih =>
    rw [List.mapM_cons] at h
    obtain ⟨summary, world₁, hfirst, h⟩ := Action.run_bind_eq_ok h
    obtain ⟨others, world₂, hrest, h⟩ := Action.run_bind_eq_ok h
    obtain ⟨hsummaries, rfl⟩ := Prod.mk.inj h
    obtain rfl : summary :: others = summaries := Except.ok.inj hsummaries
    obtain ⟨-, hsucceeds, -⟩ := succeedsAll_of_convert hfirst
    have hmatched := funext (hsucceeds.matched_eq wf config.pattern)
    have hothers := ih (hsucceeds.expands wf).wellFormed hrest
    rw [hmatched] at hothers
    rw [List.flatMap_cons, List.map_cons, List.sum_cons, Nat.add_comm]
    exact hsucceeds.append hothers

/-- **The order of targets does not count,** and neither does how often they are named. Where runs over
two lists of the same targets succeed, there are the same entries in the end, and every place holds
the same in both trees. As many files have been modified, in all conversions of a run together.

**Proof sketch.** Both runs convert the paths that the targets stood for at first, and these lead to
the same places. A place that was reached holds the expansion of what it held, however often it was
reached, and the counts are the numbers of places that have changed. -/
theorem item?_of_convertTargets (wf : fs.WellFormed)
    (hsame : ∀ target, target ∈ targets ↔ target ∈ targets')
    (h : (convertTargets platform config targets).run.run ⟨fs, session⟩ = (.ok (), world))
    (h' : (convertTargets platform config targets').run.run ⟨fs, session'⟩ = (.ok (), world')) :
    (∀ place, (world'.fs.entry? place = none ↔ world.fs.entry? place = none) ∧
      world'.fs.item? place = world.fs.item? place) ∧
    ∃ summaries summaries',
      (targets.mapM (convert platform config)).run.run ⟨fs, session⟩ = (.ok summaries, world) ∧
      (targets'.mapM (convert platform config)).run.run ⟨fs, session'⟩ =
        (.ok summaries', world') ∧
      (summaries'.map Summary.modified).sum = (summaries.map Summary.modified).sum := by
  obtain ⟨summaries, hrun⟩ := exists_summaries h
  obtain ⟨summaries', hrun'⟩ := exists_summaries h'
  have wf₀ : (World.mk fs session).fs.WellFormed := wf
  have wf₀' : (World.mk fs session').fs.WellFormed := wf
  have hsucceeds := succeedsAll_of_mapM wf₀ hrun
  have hsucceeds' := succeedsAll_of_mapM wf₀' hrun'
  have hreached : ∀ place,
      Reached fs (targets.flatMap (matched fs config.pattern)) place ↔
        Reached fs (targets'.flatMap (matched fs config.pattern)) place := by
    intro place
    simp only [Reached, List.mem_flatMap, hsame]
  obtain ⟨hitem, hcount⟩ := hsucceeds.item?_unique wf hreached hsucceeds'
  refine ⟨fun place => ⟨?_, hitem place⟩, summaries, summaries', hrun, hrun', hcount.symm⟩
  exact ((hsucceeds'.expands wf).entry?_eq_none_iff place).trans
    ((hsucceeds.expands wf).entry?_eq_none_iff place).symm

/-- A directory that is converted before and after another name of one of its files, and the same
targets the other way round. -/
theorem item?_of_convertTargets_aliased :
    let program := fun targets => (convertTargets .standard .standard targets).run
    let start : World := ⟨aliased ⟨pack [9], 0o600⟩, .start 7 (fun n => n) none⟩
    ∃ world world',
      (program [utf8 "d", utf8 "d/c", utf8 "d"]).run start = (.ok (), world) ∧
      (program [utf8 "d/c", utf8 "d"]).run start = (.ok (), world') ∧
      (∀ place, world'.fs.item? place = world.fs.item? place) ∧
      ∃ summaries, ([utf8 "d", utf8 "d/c", utf8 "d"].mapM (convert .standard .standard)).run.run
          start = (.ok summaries, world) ∧
        (summaries.map Summary.modified).sum = 2 := by
  intro program start
  have hrun : (program [utf8 "d", utf8 "d/c", utf8 "d"]).run start =
      (.ok (), ((program [utf8 "d", utf8 "d/c", utf8 "d"]).run start).2) :=
    Prod.ext (by decide +kernel) rfl
  have hrun' : (program [utf8 "d/c", utf8 "d"]).run start =
      (.ok (), ((program [utf8 "d/c", utf8 "d"]).run start).2) :=
    Prod.ext (by decide +kernel) rfl
  have hsame : ∀ target, target ∈ [utf8 "d", utf8 "d/c", utf8 "d"] ↔
      target ∈ [utf8 "d/c", utf8 "d"] := by
    intro target
    simp only [List.mem_cons, List.not_mem_nil, or_false]
    tauto
  obtain ⟨hentries, summaries, summaries', hmap, hmap', hsum⟩ :=
    item?_of_convertTargets (wellFormed_aliased ⟨pack [9], 0o600⟩) hsame hrun hrun'
  have htwo : (([utf8 "d/c", utf8 "d"].mapM (convert .standard .standard)).run.run start).1 =
      .ok [⟨1, 1⟩, ⟨2, 1⟩] := by
    decide +kernel
  obtain rfl : summaries' = [⟨1, 1⟩, ⟨2, 1⟩] := by
    rw [show ([utf8 "d/c", utf8 "d"].mapM (convert .standard .standard)).run.run start = _
      from hmap'] at htwo
    exact Except.ok.inj htwo
  exact ⟨_, _, hrun, hrun', fun place => (hentries place).2, summaries, hmap, hsum.symm⟩

end Command

end Detab
