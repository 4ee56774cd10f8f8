import Detab.Proofs.Conversion.Processes
import Detab.Proofs.Running.Silence
import Mathlib.Algebra.GroupWithZero.Nat

set_option relaxedAutoImplicit false
set_option autoImplicit false

/-!
# A directory and the files that it stands for

A directory is converted by converting the files that it stands for, one after the other. Each of
these could have been a target of its own: whether a path is a directory is then found out in another
way, through all links and at the time of its own conversion, but the answer is that it is none.

## Main definitions

* `Detab.Conversion.Summary.total` — the summary of some conversions together.

## Main results

* `Detab.FileSystem.Holds.isDirectory_eq_false` — what is found below a directory is no directory.
* `Detab.Conversion.matched_of_isDirectory_eq_false`,
  `Detab.Conversion.isDirectory_eq_false_of_mem_matched` — a path that a target stands for stands for
  itself.
* `Detab.Conversion.run_convert_of_matchSet` — **a target is converted like the paths that it stands
  for,** each of them a target of its own, by the same process or by another one.
-/

namespace Detab

namespace FileSystem

variable {fs : FileSystem} {target : Path} {goal : Place} {way : List Name}

/-- **What is found below a directory is no directory,** when it is looked at through all links.

A link that leads to a directory is not found there, and a file is where its path leads, if that
leads anywhere.

**Proof sketch.** A link that is found has been tested for this. A file is where its path leads, so
the path leads to no directory. -/
lemma Holds.isDirectory_eq_false (wf : fs.WellFormed)
    (htarget : fs.resolve .toFile target = .ok goal) (h : fs.Holds target goal way) :
    fs.isDirectory (target.extend way) = false := by
  obtain ⟨leaf, hleaf, hlink⟩ := h.leaf
  cases leaf with
  | link link => exact hlink link rfl
  | file id =>
    have hfile : fs.shape? (goal ++ way) = some .file :=
      shape?_eq_file_iff.mpr ⟨id, node?_eq_leaf_iff.mpr hleaf⟩
    rw [Bool.eq_false_iff]
    intro hdirectory
    obtain ⟨place, mode, hplace, hshape⟩ := isDirectory_iff.mp hdirectory
    -- a walk along the way ends at the file, which is no directory
    obtain rfl : place = goal ++ way := resolve_extend wf htarget ⟨.file, hfile, by simp⟩ hplace
    rw [hfile] at hshape
    simp at hshape

end FileSystem

namespace Conversion

open FileSystem Replacement

variable {platform : Platform} {config : Config} {patterns : Path → Pattern} {target path : Path}
  {paths : List Path} {fs : FileSystem} {world : World}

/-! ## Paths that stand for themselves -/

/-- What is no directory stands for itself, whatever the pattern. -/
lemma matched_of_isDirectory_eq_false (h : fs.isDirectory path = false) (pattern : Pattern) :
    matched fs pattern path = [path] := by
  rw [matched, survey, h]
  rfl

/-- No path that a target stands for leads to a directory. -/
lemma isDirectory_eq_false_of_mem_matched (wf : fs.WellFormed) {pattern : Pattern}
    (hpath : path ∈ matched fs pattern target) : fs.isDirectory path = false := by
  cases hdirectory : fs.isDirectory target with
  | false =>
    rw [matched_of_isDirectory_eq_false hdirectory, List.mem_singleton] at hpath
    rwa [hpath]
  | true =>
    obtain ⟨goal, mode, hgoal, hshape⟩ := isDirectory_iff.mp hdirectory
    obtain ⟨entries, hentry⟩ := shape?_eq_directory_iff.mp hshape
    obtain ⟨ways, hmatched, hways, -⟩ := exists_files_survey wf hgoal hentry pattern
    rw [matched, hmatched] at hpath
    obtain ⟨way, hway, rfl⟩ := List.mem_map.mp hpath
    exact ((hways way).mp hway).1.isDirectory_eq_false wf hgoal

/-! ## One conversion after the other -/

/-- The summary of some conversions together. -/
def Summary.total (summaries : List Summary) : Summary :=
  ⟨(summaries.map Summary.matched).sum, (summaries.map Summary.modified).sum⟩

/-- Some files are the first of them and the others. -/
lemma convertAll_cons (platform : Platform) (width : Width) (path : Path) (rest : List Path) :
    convertAll platform width (path :: rest) = do
      let modified ← convertAll platform width [path]
      let others ← convertAll platform width rest
      return others + modified := by
  simp [convertAll]

/-- **The conversion of what is no directory** is the conversion of this one path, apart from the
log. -/
lemma exists_run_convertAll_singleton (platform : Platform)
    (h : world.fs.isDirectory path = false) (config : Config) (log : List LogLine) :
    ∃ log', (convertAll platform config.width [path]).run.run (world.withLog log) =
        (((convert platform config path).run.run world).1.map Summary.modified,
          ((convert platform config path).run.run world).2.withLog log') ∧
      ∀ summary, ((convert platform config path).run.run world).1 = .ok summary →
        summary.matched = 1 := by
  obtain ⟨log₁, hconvert⟩ := exists_run_convert platform config path world
  rw [matched_of_isDirectory_eq_false h] at hconvert
  obtain ⟨log₂, hlogged⟩ := Script.exists_run_withLog
    (convertAll platform config.width [path]).run (world.withLog log) log₁
  obtain ⟨log₃, hrun⟩ := hconvert _ _ hlogged
  rw [hrun]
  rcases (convertAll platform config.width [path]).run.run (world.withLog log) with
    ⟨e | count, ended⟩
  · exact ⟨ended.session.log, rfl, fun summary hsummary => by simp [Except.map] at hsummary⟩
  · refine ⟨ended.session.log, rfl, fun summary hsummary => ?_⟩
    obtain rfl := Except.ok.inj hsummary
    rfl

/-- **Paths that are no directories** are converted one after the other as targets of their own.

**Proof sketch.** Induction on the paths. A conversion that succeeds leaves a tree in which the other
paths are no directories either. -/
lemma exists_run_convertAll_of_mapM (wf : world.fs.WellFormed)
    (hfiles : ∀ path ∈ paths, world.fs.isDirectory path = false) (log : List LogLine) :
    let each := fun path => convert platform ⟨patterns path, config.width⟩ path
    ∃ log', (convertAll platform config.width paths).run.run (world.withLog log) =
        (((paths.mapM each).run.run world).1.map fun summaries => (Summary.total summaries).modified,
          ((paths.mapM each).run.run world).2.withLog log') ∧
      ∀ summaries, ((paths.mapM each).run.run world).1 = .ok summaries →
        (Summary.total summaries).matched = paths.length := by
  intro each
  induction paths generalizing world log with
  | nil =>
    refine ⟨log, rfl, fun summaries hsummaries => ?_⟩
    obtain rfl : [] = summaries := Except.ok.inj hsummaries
    rfl
  | cons path rest ih =>
    obtain ⟨log₁, hfirst, hone⟩ := exists_run_convertAll_singleton platform
      (hfiles path (by simp)) ⟨patterns path, config.width⟩ log
    rw [convertAll_cons, List.mapM_cons, Action.run_bind, Action.run_bind]
    change (convertAll platform config.width [path]).run.run (world.withLog log) =
      (((each path).run.run world).1.map _, ((each path).run.run world).2.withLog log₁) at hfirst
    change ∀ summary, ((each path).run.run world).1 = .ok summary → summary.matched = 1 at hone
    rw [hfirst]
    rcases hpath : (each path).run.run world with ⟨e | summary, world₁⟩
    · exact ⟨log₁, rfl, fun summaries hsummaries => by simp at hsummaries⟩
    · have hexpands := (succeedsAll_of_convert hpath).2.1.expands wf
      have hothers : ∀ path ∈ rest, world₁.fs.isDirectory path = false := by
        intro path' hpath'
        rw [isDirectory_eq_of_keeps hexpands.keeps hexpands.kept]
        exact hfiles path' (by simp [hpath'])
      obtain ⟨log', hrest, hmatched⟩ := ih hexpands.wellFormed hothers log₁
      dsimp only [Except.map]
      rw [Action.run_bind, Action.run_bind, hrest]
      refine ⟨log', ?_⟩
      rcases hends : (rest.mapM each).run.run world₁ with ⟨e | summaries, world'⟩
      · exact ⟨rfl, fun summaries hsummaries => by simp at hsummaries⟩
      · -- one path more, and what has been modified of it
        have hone' : summary.matched = 1 := hone summary (by rw [hpath])
        have hmatched' : (Summary.total summaries).matched = rest.length :=
          hmatched summaries (by rw [hends])
        have hmodified : (Summary.total summaries).modified + summary.modified =
            (Summary.total (summary :: summaries)).modified := Nat.add_comm _ _
        refine ⟨congrArg (fun count => (Except.ok count, world'.withLog log')) hmodified,
          fun all hall => ?_⟩
        obtain rfl : summary :: summaries = all := Except.ok.inj hall
        change summary.matched + (Summary.total summaries).matched = rest.length + 1
        omega

/-! ## The whole conversion -/

/-- **A target is converted like the paths that it stands for,** each of them a target of its own, one
after the other up to the first failure, whatever the patterns for them are. Both end in the same tree,
with the same output and the same looks at the clock: but for the log the worlds are equal. Both
succeed, or both fail with the same error, and the counts of the one are the sums of the counts of the
others.

It may also be another process, at another time, that converts the target, if the outputs accept
everything and nothing is in the way of the temporary files of either. Then the trees, the announcements
and the counts are the same, and so is the error, but for the temporary path that it names.

**Proof sketch.** None of these paths is a directory, so each stands for itself. After some of them
have been converted, the others are still no directories. What two processes do is the same because
the outcome for each file is up to the tree. -/
theorem run_convert_of_matchSet (wf : world.fs.WellFormed) (platform : Platform) (config : Config)
    (target : Path) (hpaths : ((matchSet config.pattern target).run world).1 = paths)
    (patterns : Path → Pattern) {result : Except Error (List Summary)} {ended : World}
    (hrun : (paths.mapM fun path => convert platform ⟨patterns path, config.width⟩ path).run.run
      world = (result, ended)) :
    (∃ log, (convert platform config target).run.run world =
      (result.map Summary.total, ⟨ended.fs, { ended.session with log := log }⟩)) ∧
    ∀ session, world.session.limit = none → session.limit = none →
      AtEachChoice Unhindered platform config.width paths world →
      AtEachChoice Unhindered platform config.width paths ⟨world.fs, session⟩ →
        let other := (convert platform config target).run.run ⟨world.fs, session⟩
        other.2.fs = ended.fs ∧
          other.1.mapError Error.withoutTemporary =
            (result.map Summary.total).mapError Error.withoutTemporary ∧
          ∃ sent, ended.session.written = world.session.written ++ sent ∧
            other.2.session.written = session.written ++ sent := by
  rw [run_matchSet] at hpaths
  obtain rfl : matched world.fs config.pattern target = paths := hpaths
  obtain ⟨log₁, hconvert⟩ := exists_run_convert platform config target world
  obtain ⟨log₂, hall, hmatched⟩ := exists_run_convertAll_of_mapM wf
    (fun path hpath => isDirectory_eq_false_of_mem_matched wf hpath) log₁
  rw [hrun] at hall hmatched
  obtain ⟨log, hwhole⟩ := hconvert _ _ hall
  have hone : (convert platform config target).run.run world =
      (result.map Summary.total, ⟨ended.fs, { ended.session with log := log }⟩) := by
    refine hwhole.trans ?_
    cases result with
    | error e => rfl
    | ok summaries =>
      have htotal : (Summary.total summaries).matched =
          (matched world.fs config.pattern target).length := hmatched summaries rfl
      change (Except.ok _, _) = (Except.ok _, _)
      rw [← htotal]
      rfl
  refine ⟨⟨log, hone⟩, fun session hlimit hlimit' hfree hfree' => ?_⟩
  have htwo := convert_of_processes wf platform config target hlimit hlimit' hfree hfree'
  rw [hone] at htwo
  exact htwo

/-- A directory with a file and a link to it, whose paths are converted with a pattern that selects
neither, and which is then converted by another process from the same tree. -/
theorem run_convert_of_matchSet_aliased :
    let world : World := ⟨aliased ⟨pack [9], 0o600⟩, .start 7 (fun n => n) none⟩
    let other : Config := ⟨⟨"x", [.literal 'x'], rfl⟩, 4⟩
    let each := [utf8 "d/a.java", utf8 "d/b.java"].mapM (convert .standard other)
    let second := (convert .standard .standard (utf8 "d")).run.run
      ⟨world.fs, .start 12 (fun n => n + 5) none⟩
    (each.run.run world).1 = .ok [⟨1, 1⟩, ⟨1, 0⟩] ∧
      (∃ log, (convert .standard .standard (utf8 "d")).run.run world =
        (.ok ⟨2, 1⟩, (each.run.run world).2.withLog log)) ∧
      second.2.fs = (each.run.run world).2.fs ∧
      second.1.mapError Error.withoutTemporary = .ok ⟨2, 1⟩ := by
  intro world other each second
  have hpaths : ((matchSet Config.standard.pattern (utf8 "d")).run world).1 =
      [utf8 "d/a.java", utf8 "d/b.java"] := by
    decide +kernel
  have heach : each.run.run world = (.ok [⟨1, 1⟩, ⟨1, 0⟩], (each.run.run world).2) :=
    Prod.ext (by decide +kernel) rfl
  have hfree : AtEachChoice Unhindered .standard Config.standard.width
      [utf8 "d/a.java", utf8 "d/b.java"] world := by
    decide +kernel
  have hfree' : AtEachChoice Unhindered .standard Config.standard.width
      [utf8 "d/a.java", utf8 "d/b.java"] ⟨world.fs, .start 12 (fun n => n + 5) none⟩ := by
    decide +kernel
  obtain ⟨hone, htwo⟩ := run_convert_of_matchSet (wellFormed_aliased ⟨pack [9], 0o600⟩) .standard
    .standard (utf8 "d") hpaths (fun _ => other.pattern) heach
  obtain ⟨hfs, hresult, -⟩ := htwo _ rfl rfl hfree hfree'
  exact ⟨by rw [heach], hone, hfs, hresult⟩

end Conversion

end Detab
