import Detab.Command.Run
import Detab.Proofs.Config.Precedence
import Detab.Proofs.Conversion.Calls
import Detab.Proofs.Conversion.Repeating

set_option relaxedAutoImplicit false
set_option autoImplicit false

/-!
# What a whole run prints and changes

A run loads its settings and then converts its targets, each of which finds out what it stands for
when its turn comes. As conversions change nothing for walks, that could all have been found out
before the first of them. So output and tree of a run follow one list of paths, which is read off the
tree as it was at first, up to its end or to the first file that cannot be converted.

## Main results

* `Detab.Command.follows_convertTargets` — the conversion of targets follows the conversion
  of the paths that they stand for at first.
* `Detab.Command.output_and_tree_of_run` — **what a whole run prints and changes.**
-/

namespace Detab

open FileSystem

namespace Command

open Conversion

variable {fs : FileSystem} {start w world : World}

/-- **The conversion of targets follows** the conversion of the paths that they stand for at first, if
the output has no limit.

**Proof sketch.** Induction on the targets. The files of the first target have been converted, or it
is the last one that has any effect. Afterwards the other targets stand for the paths that they stood
for. -/
lemma follows_convertTargets (wf : w.fs.WellFormed) (platform : Platform) (config : Config)
    (targets : List Path) (halike : w.Alike world) (hlimit : world.session.limit = none) :
    ∃ result world', (convertTargets platform config targets).run.run world =
        (result, world') ∧
      Follows platform config.width (targets.flatMap (matched w.fs config.pattern)) w world result
        world' := by
  induction targets generalizing w world with
  | nil => exact ⟨.ok (), world, rfl, .done rfl ⟨halike, (List.append_nil _).symm, rfl⟩⟩
  | cons target rest ih =>
    obtain ⟨result, world₁, hrun, hfollows⟩ := follows_convert platform config target halike hlimit
    rw [halike.fs] at hfollows
    rw [List.flatMap_cons]
    cases result with
    | error e =>
      exact ⟨.error e, world₁, Action.run_bind_of_error hrun, hfollows.append_of_error _⟩
    | ok summary =>
      cases hfollows with
      | @done w₁ _ hfirst hafter =>
        obtain ⟨count, hsucceeds⟩ := succeedsAll_of_convertEach hfirst
        obtain ⟨result, world', hrest, hfollows⟩ :=
          ih (hsucceeds.expands wf).wellFormed hafter.alike (hafter.limit.trans hlimit)
        rw [funext (hsucceeds.matched_eq wf config.pattern)] at hfollows
        exact ⟨result, world', (Action.run_bind_of_ok hrun).trans hrest,
          .append hfirst hafter hfollows⟩

/-- The line that tells of the settings of a run. -/
def settingsLine (config : Config) : LogLine :=
  ⟨.debug, s!"Replacing tabs with {config.width} spaces in files matching '{config.pattern.text}'"⟩

/-- A run ends where its settings cannot be loaded, or else where its targets have been converted. -/
lemma run_run (platform : Platform) (options : Options) (world : World) :
    (run platform options).run.run world =
      match (Config.load options.config ⟨options.pattern, options.width⟩).run.run world with
      | (.error e, loaded) => (.error (.config e), loaded)
      | (.ok config, loaded) =>
        let ended := (convertTargets platform config options.targets).run.run
          ⟨loaded.fs, loaded.session.addLine (settingsLine config)⟩
        (ended.1.mapError .conversion, ended.2) := by
  rcases hload : (Config.load options.config ⟨options.pattern, options.width⟩).run.run world with
    ⟨e | config, loaded⟩
  · exact Action.run_bind_of_error (Action.run_ofScript_of_run hload)
  · refine (Action.run_bind_of_ok (Action.run_ofScript_of_run hload)).trans ?_
    exact Action.run_ofScript _ _ _

/-- **What a whole run prints and changes.** Where the settings cannot be loaded, nothing is printed and
the tree is as it was. Otherwise let `paths` be those that the targets stand for, one target after the
other, in the tree as it was at first. A run that succeeds has announced all of them, and leaves the
tree that their conversions make, one after the other. A run that fails has announced them up to
the first one that cannot be converted, and, if the temporary file of that one had a new name, leaves
the tree that the conversions of the ones before it have made.

**Proof sketch.** The run goes through the same trees as the conversions of these paths without
announcements, since each target stands for the same paths when its turn comes. A conversion of a file
that fails leaves the tree as it was. -/
theorem output_and_tree_of_run (wf : fs.WellFormed) (platform : Platform) (options : Options)
    (process : Nat) (clock : Nat → Nat) {result : Except Failure Unit} {final : World}
    (hstart : start = ⟨fs, .start process clock none⟩)
    (hrun : (run platform options).run.run start = (result, final))
    {loaded : Except Config.Error Config}
    (hload : ((Config.load options.config ⟨options.pattern, options.width⟩).run.run start).1 =
      loaded) :
    (∀ e, loaded = .error e →
      result = .error (.config e) ∧ final.session.written = [] ∧ final.fs = fs) ∧
    ∀ config paths, loaded = .ok config →
      paths = options.targets.flatMap (matched fs config.pattern) →
      (result = .ok () → final.session.written = paths.flatMap notice ∧
        ∃ world, (convertEach platform config.width paths).run.run start = (.ok (), world) ∧
          final.fs = world.fs) ∧
      ∀ e, result = .error e → ∃ before path world cause,
        FirstFailure platform config.width start paths before path world cause ∧
        e = .conversion cause ∧
        final.session.written = (before ++ [path]).flatMap notice ∧
        ((∀ request fs, (request, fs) ∈
            (convertFile platform path config.width).run.trace (fun _ => none) (.start world) →
              Unopposed request fs) →
          world.fs.SameTree final.fs) := by
  subst hstart
  obtain ⟨_, log, hloaded⟩ := Config.exists_run_load options.config
    ⟨options.pattern, options.width⟩ ⟨fs, .start process clock none⟩
  rw [hloaded] at hload
  obtain rfl : _ = loaded := hload
  rw [run_run, hloaded] at hrun
  refine ⟨fun e he => ?_, fun config paths hconfig hpaths => ?_⟩
  · subst he
    obtain ⟨rfl, rfl⟩ := Prod.mk.inj hrun
    exact ⟨rfl, rfl, rfl⟩
  · subst hconfig hpaths
    have halike : World.Alike ⟨fs, .start process clock none⟩
        ⟨fs, Session.addLine { Session.start process clock none with log := log }
          (settingsLine config)⟩ :=
      ⟨rfl, rfl, rfl, rfl⟩
    obtain ⟨ended, world', hends, hfollows⟩ :=
      follows_convertTargets wf platform config options.targets halike rfl
    simp only [hends] at hrun
    obtain ⟨rfl, rfl⟩ := Prod.mk.inj hrun
    cases hfollows with
    | @done world _ heach hafter =>
      refine ⟨fun _ => ⟨hafter.written, world, heach, hafter.alike.fs⟩, fun e he => ?_⟩
      simp [Except.mapError] at he
    | @failed before path world failed _ cause hfirst hfile hafter =>
      refine ⟨fun hok => ?_, fun e he => ?_⟩
      · simp [Except.mapError] at hok
      · obtain rfl : .conversion cause = e := Except.error.inj he
        refine ⟨before, path, world, cause, hfirst, rfl, hafter.written, fun hfree => ?_⟩
        have wf' : world.fs.WellFormed := wellFormed_of_convertEach wf hfirst.before_ok
        rw [hafter.alike.fs]
        exact sameTree_of_unopposed wf' hfile hfree

/-- A file of settings `c`, and a directory `d` with a file and a link to it. -/
def withSettings : FileSystem where
  rootMode := .newDirectory
  root :=
    .leaf (utf8 "c") (.file 0)
      (.sub (utf8 "d") .newDirectory
        (.leaf (utf8 "a.java") (.file 1) (.leaf (utf8 "b.java") (.link (utf8 "a.java")) .empty))
        .empty)
  files := [⟨pack (utf8 "\x7b spaces: 2 \x7d"), .newFile⟩, ⟨pack [9], 0o600⟩]
  workingDirectory := []

/-- The example tree with a file of settings is well formed, by going through its entries. -/
lemma wellFormed_withSettings : withSettings.WellFormed := by
  have hroot : withSettings.root.WellFormed 2 := by decide +kernel
  exact ⟨hroot, .newDirectory, rfl⟩

/-- A run over a directory, something that does not exist, and the directory again: it ends at the
second target. -/
theorem output_and_tree_of_run_missing :
    let options : Options := { Options.empty with
      config := some (utf8 "c"), targets := [utf8 "d", utf8 "m", utf8 "d"] }
    let start : World := ⟨withSettings, .start 7 (fun n => n) none⟩
    ∃ final world, (run .standard options).run.run start =
        (.error (.conversion (.reading (utf8 "m") .notFound)), final) ∧
      final.session.written = utf8 "Converting d/a.java\nConverting d/b.java\nConverting m\n" ∧
      (convertEach .standard 2 [utf8 "d/a.java", utf8 "d/b.java"]).run.run start =
        (.ok (), world) ∧
      world.fs.SameTree final.fs := by
  intro options start
  let paths := [utf8 "d/a.java", utf8 "d/b.java", utf8 "m", utf8 "d/a.java", utf8 "d/b.java"]
  have hpaths : paths =
      options.targets.flatMap (matched withSettings Config.standard.pattern) := by
    decide +kernel
  have hload : ((Config.load options.config ⟨options.pattern, options.width⟩).run.run start).1 =
      .ok { Config.standard with width := 2 } := by
    decide +kernel
  have hrun : (run .standard options).run.run start =
      (.error (.conversion (.reading (utf8 "m") .notFound)),
        ((run .standard options).run.run start).2) :=
    Prod.ext (by decide +kernel) rfl
  obtain ⟨-, hloaded⟩ := output_and_tree_of_run wellFormed_withSettings .standard options 7
    (fun n => n) rfl hrun hload
  obtain ⟨-, hfailed⟩ := hloaded _ paths rfl hpaths
  obtain ⟨before, path, world, cause, hfirst, hcause, hwritten, hsame⟩ := hfailed _ rfl
  let program := (convertEach .standard 2 [utf8 "d/a.java", utf8 "d/b.java"]).run
  have hbefore : program.run start = (.ok (), (program.run start).2) :=
    Prod.ext (by decide +kernel) rfl
  have hmissing : FirstFailure .standard 2 start paths [utf8 "d/a.java", utf8 "d/b.java"]
      (utf8 "m") (program.run start).2 (.reading (utf8 "m") .notFound) :=
    ⟨⟨[utf8 "d/a.java", utf8 "d/b.java"], rfl⟩, hbefore, by decide +kernel⟩
  obtain ⟨rfl, rfl, rfl, -⟩ := hfirst.unique hmissing
  have hfree : ∀ asked ∈ (convertFile .standard (utf8 "m") 2).run.trace (fun _ => none)
      (.start (program.run start).2), Unopposed asked.1 asked.2 := by
    decide +kernel
  refine ⟨_, _, hrun, hwritten.trans (by decide +kernel), hbefore, ?_⟩
  exact hsame fun request fs hmem => hfree (request, fs) hmem

end Command

end Detab
