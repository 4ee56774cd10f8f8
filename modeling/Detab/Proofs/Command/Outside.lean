import Detab.Proofs.Command.WholeRun
import Detab.Proofs.Running.Twins

set_option relaxedAutoImplicit false
set_option autoImplicit false

/-!
# Files that no target leads to

A run without a file of settings looks into no file but those that the paths of its targets lead to.
Which paths these are, what is asked, and where temporary files are put is decided by names, links and
directories alone. So whatever the other files hold and whatever their modes are, the run does and
says the same.

## Main definitions

* `Detab.FileSystem.Outside` — the files of a tree that none of some paths lead to.
* `Detab.FileSystem.Descends` — a tree in which only files that some paths lead to have been
  overwritten.
* `Detab.LooksInside` — a request that looks into no file outside.

## Main results

* `Detab.Conversion.staysInside_convertFile`, `Detab.Command.staysInside_run` — **a run looks into no
  file outside,** and leaves these files as they are.
* `Detab.Command.run_of_twins` — **a run in two trees that only files outside tell apart.**

## Design

Files are told apart by their numbers and not by their places: a file with two names is not outside
if one of them is the end of some path. New files get new numbers, so they are never outside, and a
file that is overwritten has another number afterwards.
-/

namespace Detab

open FileSystem

/-! ## Files outside -/

namespace FileSystem

variable {fs₀ fs fs' : FileSystem} {paths : List Path} {path : Path} {place : Place} {id : FileId}

/-- **A file that none of some paths leads to,** among the files that there are. -/
def Outside (fs : FileSystem) (paths : List Path) (id : FileId) : Prop :=
  id < fs.files.length ∧ ∀ path ∈ paths, ¬ fs.Names .toFile path id

/-- **A tree that has come from another one** in which nothing but files that some paths lead to has
been overwritten, by new files. -/
structure Descends (paths : List Path) (fs₀ fs : FileSystem) : Prop where
  wellFormed : fs.WellFormed
  keeps : fs₀.Keeps fs
  kept : fs.Keeps fs₀
  files : fs₀.files <+: fs.files
  node : ∀ place, fs.node? place = fs₀.node? place ∨
    Conversion.Reached fs₀ paths place ∧
      ∃ id, fs₀.files.length ≤ id ∧ fs.node? place = some (.leaf (.file id))

namespace Descends

/-- A tree that no file has been replaced in yet descends from itself. -/
lemma refl (wf : fs.WellFormed) (paths : List Path) : Descends paths fs fs :=
  ⟨wf, .refl fs, .refl fs, List.prefix_rfl, fun _ => .inl rfl⟩

/-- One more file, which nothing names. -/
lemma withFile (h : Descends paths fs₀ fs) (file : File) :
    Descends paths fs₀ (fs.withFile file) := by
  have hkeeps : fs.Keeps (fs.withFile file) := ⟨rfl, fun _ _ hshape => hshape⟩
  have hkept : (fs.withFile file).Keeps fs := ⟨rfl, fun _ _ hshape => hshape⟩
  exact ⟨h.wellFormed.withFile file, h.keeps.trans hkeeps, hkept.trans h.kept,
    h.files.trans (List.prefix_append _ _), h.node⟩

/-- A tree with one more file that nothing names still descends from the first one: such a file is
new, and no path leads to it. -/
lemma of_asBefore (h : Descends paths fs₀ fs) (hafter : Replacement.AsBefore fs fs') :
    Descends paths fs₀ fs' := by
  rcases hafter with rfl | ⟨file, rfl⟩
  · exact h
  · exact h.withFile file

/-- Paths lead where they led. -/
lemma resolve_iff (h : Descends paths fs₀ fs) :
    fs.resolve .toFile path = .ok place ↔ fs₀.resolve .toFile path = .ok place :=
  ⟨h.kept.resolve, h.keeps.resolve⟩

/-- **The conversion of a file** that one of the paths leads to.

**Proof sketch.** A file that is kept leaves the tree alone. A file that is rewritten gets a number
behind the end of the first table, and its place is one that the path led to at first, as walks have
not changed. -/
lemma of_converted (h : Descends paths fs₀ fs) (hpath : path ∈ paths) {width : Width}
    {modified : Bool} (hafter : Conversion.Converted width fs path modified fs') :
    Descends paths fs₀ fs' := by
  cases hafter with
  | kept => exact h
  | @rewritten parent name id file hleads _ _ =>
    have hnode := hleads.node
    have hlength : fs₀.files.length ≤ fs.files.length := h.files.length_le
    refine ⟨h.wellFormed.overwrite hnode _, h.keeps.trans (keeps_overwrite hnode _),
      .trans (overwrite_keeps hnode _) h.kept, h.files.trans (List.prefix_append _ _),
      fun place => ?_⟩
    rw [node?_overwrite hnode]
    split_ifs with hplace
    · subst hplace
      exact .inr ⟨⟨path, hpath, h.resolve_iff.mp hleads.resolve⟩, _, hlength, rfl⟩
    · exact h.node place

/-- None of the paths leads to a file outside. -/
lemma not_outside (h : Descends paths fs₀ fs) (hpath : path ∈ paths)
    (hnames : fs.Names .toFile path id) : ¬ fs₀.Outside paths id := by
  rintro ⟨hid, houtside⟩
  obtain ⟨goal, hgoal, hnode⟩ := hnames
  rcases h.node goal with hsame | ⟨-, new, hnew, hnode'⟩
  · exact houtside path hpath ⟨goal, h.resolve_iff.mp hgoal, hsame.symm.trans hnode⟩
  · obtain rfl : id = new := by simpa using hnode.symm.trans hnode'
    exact absurd hid (Nat.not_lt.mpr hnew)

/-- **A place of a file outside holds what it held.** -/
lemma item?_of_outside (h : Descends paths fs₀ fs)
    (hplace : fs₀.node? place = some (.leaf (.file id))) (houtside : fs₀.Outside paths id) :
    fs.item? place = fs₀.item? place := by
  obtain ⟨hid, hnot⟩ := houtside
  rcases h.node place with hsame | ⟨⟨path, hpath, hgoal⟩, -⟩
  · rw [item?_eq_bind_node?, item?_eq_bind_node?, hsame, hplace]
    simp only [Option.bind_some, Node.item?, itemOfLeaf?]
    rw [List.prefix_iff_getElem?.mp h.files id hid]
    simp [hid]
  · exact absurd ⟨place, hgoal, hplace⟩ (hnot path hpath)

/-- A place that is not one of a file outside names no file outside. -/
lemma not_outside_of_node (h : Descends paths fs₀ fs)
    (hplace : ∀ id, fs₀.node? place = some (.leaf (.file id)) → ¬ fs₀.Outside paths id)
    (hnode : fs.node? place = some (.leaf (.file id))) : ¬ fs₀.Outside paths id := by
  rcases h.node place with hsame | ⟨-, new, hnew, hnode'⟩
  · exact hplace id (hsame.symm.trans hnode)
  · obtain rfl : id = new := by simpa using hnode.symm.trans hnode'
    exact fun houtside => absurd houtside.1 (Nat.not_lt.mpr hnew)

end Descends

end FileSystem

/-- **A request that looks into no file outside.** -/
def LooksInside (fs₀ : FileSystem) (paths : List Path) (request : Request) (fs : FileSystem) :
    Prop :=
  ∀ id, request.LooksInto fs id → ¬ fs₀.Outside paths id

/-! ## Runs look into no file outside -/

section Maintaining

variable {fs₀ : FileSystem} {paths : List Path} {request : Request}

/-- A request that asks for no contents and no mode. -/
lemma looksInside_of_not_looksInto (h : ∀ fs id, ¬ request.LooksInto fs id) (fs : FileSystem) :
    LooksInside fs₀ paths request fs :=
  fun id hlooks => absurd hlooks (h fs id)

/-- A script that looks into no file outside, and leaves these files as they are, if its new files are
made where nothing exists yet. -/
abbrev Script.StaysInside {α : Type} (fs₀ : FileSystem) (paths : List Path) (script : Script α) :
    Prop :=
  script.Maintains Unopposed (LooksInside fs₀ paths) (Descends paths fs₀)

/-- A request that leaves the tree alone, and asks for no contents and no mode. -/
lemma staysInside_request (hstill : request.Still) (h : ∀ fs id, ¬ request.LooksInto fs id) :
    (Script.request request).StaysInside fs₀ paths :=
  Script.maintains_request hstill fun fs _ => looksInside_of_not_looksInto h fs

end Maintaining

namespace Conversion

open Replacement

variable {fs₀ : FileSystem} {platform : Platform} {width : Width} {config : Config} {path target : Path}
  {paths found : List Path} {moment : Moment}

/-- **The conversion of a file** that one of the paths leads to. -/
lemma staysInside_convertFile (platform : Platform) (width : Width) (hpath : path ∈ paths) :
    Script.StaysInside fs₀ paths (convertFile platform path width).run := by
  intro moment hdescends
  refine Script.Provided.mono
    (provided_convertFile hdescends.wellFormed platform width path rfl) ?_ ?_
  · rintro request fs (hdraft | ⟨rfl, hnames⟩) id hlooks
    · exact absurd hlooks (hdraft.not_looksInto fs id)
    · exact hdescends.not_outside hpath (hnames id hlooks)
  · intro result moment' hend
    cases result with
    | ok modified => exact hdescends.of_converted hpath hend
    | error e => exact hdescends.of_asBefore hend

/-- Conversions of several files stay inside when every one of their paths is among those that may
be opened. -/
lemma staysInside_convertAll (platform : Platform) (width : Width) (h : ∀ path ∈ found, path ∈ paths) :
    Script.StaysInside fs₀ paths (convertAll platform width found).run := by
  induction found with
  | nil => exact Script.maintains_pure _
  | cons path rest ih =>
    refine Action.maintains_bind (Action.maintains_ofScript
      (staysInside_request trivial fun _ _ hlooks => hlooks)) fun _ => ?_
    refine Action.maintains_bind (staysInside_convertFile platform width (h path (by simp)))
      fun _ => ?_
    refine Action.maintains_bind (ih fun path' hpath' => h path' (by simp [hpath'])) fun _ => ?_
    exact Script.maintains_pure _

/-- Warnings about directories that were skipped are logged without a look at the tree. -/
lemma staysInside_logSkipped (skipped : List (Path × IoError)) :
    (logSkipped skipped).StaysInside fs₀ paths := by
  induction skipped with
  | nil => exact Script.maintains_pure _
  | cons entry rest ih =>
    exact Script.maintains_bind (staysInside_request trivial fun _ _ hlooks => hlooks) fun _ => ih

/-- **What a target is found to stand for** is what it stood for at first.

**Proof sketch.** The survey looks into no file, and neither does the logging of what was skipped.
The tree is the same to walks as the first one, so it has the same match set. -/
lemma provided_matchSet (wf : fs₀.WellFormed) (pattern : Pattern) (target : Path)
    (h : Descends paths fs₀ moment.world.fs) :
    (matchSet pattern target).Provided Unopposed (LooksInside fs₀ paths)
      (fun found moment => found = matched fs₀ pattern target ∧ Descends paths fs₀ moment.world.fs)
      moment := by
  refine Script.provided_bind (Script.provided_request (.survey target)
    (fun _ hlooks => hlooks.elim) fun fault => ?_)
  have hafter : moment.after fault (.survey target) =
      (moment.world.fs.survey target, ⟨moment.asked ++ [.survey target], moment.world⟩) := by
    cases fault <;> rfl
  rw [hafter]
  have hlogged := staysInside_logSkipped ((moment.world.fs.survey target).skipped target)
    ⟨moment.asked ++ [.survey target], moment.world⟩ h
  refine Script.provided_bind (hlogged.mono (fun _ _ hnow => hnow) ?_)
  intro _ moment' hend
  exact ⟨matched_of_keeps wf h.wellFormed h.keeps h.kept pattern target, hend⟩

/-- A call with one target stays inside when the paths that match in it are among those that may be
opened. The match set is taken of the first tree, and no conversion of the call changes it. -/
lemma staysInside_convert (wf : fs₀.WellFormed) (platform : Platform) (config : Config)
    (h : ∀ path ∈ matched fs₀ config.pattern target, path ∈ paths) :
    Script.StaysInside fs₀ paths (convert platform config target).run := by
  intro moment hdescends
  refine Script.provided_bind (Script.provided_map
    ((provided_matchSet wf config.pattern target hdescends).mono (fun _ _ hnow => hnow) ?_))
  rintro found moment' ⟨rfl, hdescends'⟩
  refine Action.maintains_bind (staysInside_convertAll platform config.width h) (fun _ => ?_)
    moment' hdescends'
  exact Action.maintains_bind (Action.maintains_lift
    (staysInside_request trivial fun _ _ hlooks => hlooks)) fun _ => Script.maintains_pure _

end Conversion

namespace Command

open Conversion

variable {fs fs' fs₀ : FileSystem} {platform : Platform} {config : Config} {options : Options}
  {targets paths : List Path} {session : Session}

/-- **Calls for several targets, one after the other, stay inside** when the paths that match in any
of the targets are among those that may be opened. -/
lemma staysInside_convertTargets (wf : fs₀.WellFormed) (platform : Platform) (config : Config)
    (h : ∀ path ∈ targets.flatMap (matched fs₀ config.pattern), path ∈ paths) :
    Script.StaysInside fs₀ paths (convertTargets platform config targets).run := by
  induction targets with
  | nil => exact Script.maintains_pure _
  | cons target rest ih =>
    rw [List.flatMap_cons] at h
    refine Action.maintains_bind (staysInside_convert wf platform config fun path hpath =>
      h path (List.mem_append_left _ hpath)) fun _ => ?_
    exact ih fun path hpath => h path (List.mem_append_right _ hpath)

/-- The settings of a run without a file of settings. -/
def settings (options : Options) : Config :=
  Config.standard.withLayer ⟨options.pattern, options.width⟩

/-- The paths that the targets of such a run stand for. -/
def allMatched (fs : FileSystem) (options : Options) : List Path :=
  options.targets.flatMap (matched fs (settings options).pattern)

/-- **A run without a file of settings looks into no file outside,** and leaves these files as they
are. -/
lemma staysInside_run (wf : fs₀.WellFormed) (platform : Platform) (hconfig : options.config = none) :
    Script.StaysInside fs₀ (allMatched fs₀ options) (run platform options).run := by
  have hload : (run platform options).run = ExceptT.run (do
      log .debug (settingsLine (settings options)).text
      Action.ofScript .conversion
        (convertTargets platform (settings options) options.targets).run : Action Failure Unit) := by
    rw [run, hconfig]
    rfl
  rw [hload]
  refine Action.maintains_bind (Action.maintains_lift
    (staysInside_request trivial fun _ _ hlooks => hlooks)) fun _ => ?_
  exact Action.maintains_ofScript
    (staysInside_convertTargets wf platform (settings options) fun path hpath => hpath)

/-! ## Two trees -/

/-- A new file that is made where nothing exists in the one tree is so in the other. -/
lemma unopposed_of_twins {apart : FileId → Prop} (h : fs.Twins apart fs') {request : Request}
    (hfree : Unopposed request fs) : Unopposed request fs' := by
  cases request with
  | createNew path =>
    intro parent mode entries n asDirectory hlast
    rw [h.lastStep] at hlast
    exact hfree parent mode entries n asDirectory hlast
  | _ => trivial

/-- Trees that differ in the contents of some files only have the same match sets, for all targets
together. -/
lemma allMatched_of_twins {apart : FileId → Prop} (h : fs.Twins apart fs') (options : Options) :
    allMatched fs' options = allMatched fs options := by
  have hmatched : matched fs' (settings options).pattern =
      matched fs (settings options).pattern := by
    funext target
    rw [matched, matched, h.survey]
  rw [allMatched, allMatched, hmatched]

/-- Which files no path leads to is the same in two trees that differ in the contents of some files
only. -/
lemma outside_of_twins {apart : FileId → Prop} (h : fs.Twins apart fs') (paths : List Path) :
    fs'.Outside paths = fs.Outside paths := by
  funext id
  simp only [FileSystem.Outside, h.length, h.names_iff]

/-- Where a run without a file of settings ends, if its new files are made where nothing exists yet. -/
lemma descends_of_run (wf : fs.WellFormed) (platform : Platform) (hconfig : options.config = none)
    (hfree : ∀ request fs', (request, fs') ∈ (run platform options).run.trace (fun _ => none)
      (.start ⟨fs, session⟩) → Unopposed request fs') :
    (∀ request fs', (request, fs') ∈ (run platform options).run.trace (fun _ => none)
        (.start ⟨fs, session⟩) → LooksInside fs (allMatched fs options) request fs') ∧
      Descends (allMatched fs options) fs ((run platform options).run.run ⟨fs, session⟩).2.fs := by
  obtain ⟨hlooks, hend⟩ := Script.Provided.runUnder
    (staysInside_run wf platform hconfig (.start ⟨fs, session⟩) (.refl wf _)) hfree
  refine ⟨hlooks, ?_⟩
  have hrun := Script.run_eq_runUnder (run platform options).run (.start ⟨fs, session⟩)
  change (run platform options).run.run ⟨fs, session⟩ = _ at hrun
  rw [hrun]
  exact hend

/-- **A run in two trees that only files outside tell apart,** by their contents and modes. It is a run
without a file of settings, and outside are the files that no path of any target leads to; new files
are made where nothing exists yet. Then the runs succeed alike or fail alike with the same error, print
and log the same, and look at the clock as often. Afterwards every file outside is what it was in its
own tree, and every other place holds the same in both trees.

**Proof sketch.** A run looks into no file outside, so it asks the same of both trees and is answered
the same. What it overwrites are files that the paths of its targets lead to. -/
theorem run_of_twins (wf : fs.WellFormed) (platform : Platform) (hconfig : options.config = none)
    (htwins : fs.Twins (fs.Outside (allMatched fs options)) fs')
    (hfree : ∀ request fs'', (request, fs'') ∈ (run platform options).run.trace (fun _ => none)
      (.start ⟨fs, session⟩) → Unopposed request fs'')
    {result : Except Failure Unit} {ended : World}
    (hrun : (run platform options).run.run ⟨fs, session⟩ = (result, ended)) :
    ∃ ended', (run platform options).run.run ⟨fs', session⟩ = (result, ended') ∧
      ended'.session = ended.session ∧
      (∀ place, ended'.fs.entry? place = ended.fs.entry? place) ∧
      (∀ place id, fs.node? place = some (.leaf (.file id)) →
        fs.Outside (allMatched fs options) id →
          ended.fs.item? place = fs.item? place ∧ ended'.fs.item? place = fs'.item? place) ∧
      ∀ place, (∀ id, fs.node? place = some (.leaf (.file id)) →
        ¬ fs.Outside (allMatched fs options) id) →
          ended'.fs.item? place = ended.fs.item? place := by
  obtain ⟨hlooks, hdescends⟩ := descends_of_run wf platform hconfig hfree
  have hstart : (Moment.start ⟨fs, session⟩).world.fs.Twins (fs.Outside (allMatched fs options))
      (Moment.start ⟨fs', session⟩).world.fs := htwins
  obtain ⟨hresult, hends, hsession, hasked⟩ := hstart.run rfl hlooks
  change _ = ((run platform options).run.run ⟨fs, session⟩).1 at hresult
  change ((run platform options).run.run ⟨fs, session⟩).2.fs.Twins _ _ at hends
  change _ = ((run platform options).run.run ⟨fs, session⟩).2.session at hsession
  have hfree' : ∀ request fs'', (request, fs'') ∈ (run platform options).run.trace (fun _ => none)
      (.start ⟨fs', session⟩) → Unopposed request fs'' := by
    intro request fs'' hmem
    obtain ⟨fs₁, hmem₁, htwins₁⟩ := hasked request fs'' hmem
    exact unopposed_of_twins htwins₁ (hfree request fs₁ hmem₁)
  obtain ⟨-, hdescends'⟩ := descends_of_run (htwins.wellFormed wf) platform hconfig hfree'
  rw [allMatched_of_twins htwins] at hdescends'
  rw [hrun] at hresult hends hsession hdescends
  refine ⟨((run platform options).run.run ⟨fs', session⟩).2, Prod.ext hresult rfl, hsession,
    hends.entry?, fun place id hplace houtside => ?_, fun place hplace => ?_⟩
  · refine ⟨hdescends.item?_of_outside hplace houtside, ?_⟩
    refine hdescends'.item?_of_outside ((htwins.node? place).trans hplace) ?_
    rwa [outside_of_twins htwins]
  · exact hends.item? fun id hnode => hdescends.not_outside_of_node hplace hnode

/-- A run beside a file of settings that is not named, and the same run beside one that says something
else and cannot be read. -/
theorem run_of_twins_withSettings :
    let options : Options := { Options.empty with targets := [utf8 "d"] }
    let session : Session := .start 7 (fun n => n) none
    let other : FileSystem := { withSettings with
      files := [⟨pack (utf8 "\x7b spaces: 8 \x7d"), 0o000⟩, ⟨pack [9], 0o600⟩] }
    ∃ ended ended',
      (run .standard options).run.run ⟨withSettings, session⟩ = (.ok (), ended) ∧
      (run .standard options).run.run ⟨other, session⟩ = (.ok (), ended') ∧
      ended'.session = ended.session ∧
      ended'.fs.item? [utf8 "c"] = other.item? [utf8 "c"] ∧
      ended'.fs.item? [utf8 "d", utf8 "a.java"] = ended.fs.item? [utf8 "d", utf8 "a.java"] ∧
      ended.fs.item? [utf8 "d", utf8 "a.java"] = some (.file (pack [32, 32, 32, 32]) 0o600) := by
  intro options session other
  have hmatched : allMatched withSettings options = [utf8 "d/a.java", utf8 "d/b.java"] := by
    decide +kernel
  have hnames : ∀ path ∈ allMatched withSettings options,
      withSettings.resolve .toFile path = .ok [utf8 "d", utf8 "a.java"] := by
    rw [hmatched]
    decide +kernel
  have hnode : withSettings.node? [utf8 "d", utf8 "a.java"] = some (.leaf (.file 1)) := by
    decide +kernel
  have houtside : withSettings.Outside (allMatched withSettings options) 0 := by
    refine ⟨by decide, ?_⟩
    rintro path hpath ⟨goal, hgoal, hnode'⟩
    obtain rfl := Except.ok.inj ((hnames path hpath).symm.trans hgoal)
    simp [hnode] at hnode'
  have hinside : ¬ withSettings.Outside (allMatched withSettings options) 1 := by
    intro houtside
    refine houtside.2 (utf8 "d/a.java") (by rw [hmatched]; simp) ⟨_, ?_, hnode⟩
    exact hnames _ (by rw [hmatched]; simp)
  have htwins : withSettings.Twins (withSettings.Outside (allMatched withSettings options))
      other := by
    refine ⟨rfl, rfl, rfl, by decide, fun id hid => ?_⟩
    rcases id with _ | _ | id
    · exact absurd houtside hid
    · decide +kernel
    · rw [List.getElem?_eq_none (by simp [other]), List.getElem?_eq_none (by simp [withSettings])]
  have hfree : ∀ asked ∈ (run .standard options).run.trace (fun _ => none)
      (.start ⟨withSettings, session⟩), Unopposed asked.1 asked.2 := by
    decide +kernel
  have hrun : (run .standard options).run.run ⟨withSettings, session⟩ =
      (.ok (), ((run .standard options).run.run ⟨withSettings, session⟩).2) :=
    Prod.ext (by decide +kernel) rfl
  have hconfig : options.config = none := rfl
  obtain ⟨ended', hrun', hsession, -, hout, hin⟩ := run_of_twins wellFormed_withSettings .standard
    hconfig htwins (fun request fs hmem => hfree (request, fs) hmem) hrun
  refine ⟨_, ended', hrun, hrun', hsession, ?_, ?_, by decide +kernel⟩
  · exact (hout [utf8 "c"] 0 (by decide +kernel) houtside).2
  · refine hin [utf8 "d", utf8 "a.java"] fun id hid => ?_
    obtain rfl : 1 = id := by simpa [hnode] using hid
    exact hinside

end Command

end Detab
