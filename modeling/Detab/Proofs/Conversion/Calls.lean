import Detab.Proofs.Conversion.AllFiles
import Detab.Proofs.FileSystem.Outlines
import Detab.Proofs.Replacement.Requests

set_option relaxedAutoImplicit false
set_option autoImplicit false

/-!
# Calls that succeed or fail

Files are replaced and converted, and targets are converted, one call after the other, each with any
arguments, and each may succeed or fail at any of its requests. As long as new files are made only
where nothing exists yet, the entries of the tree stay what they are: no name comes or goes, and kinds,
modes and targets of links are kept. So a target stands for the same paths before, between and after
the calls.

## Main definitions

* `Detab.Script.Steady` — scripts that keep the entries of the tree, if their new files are unopposed.
* `Detab.Conversion.Call`, `Detab.Conversion.inTurn` — calls with any arguments, one after the other.

## Main results

* `Detab.Conversion.provided_convertFile` — what the conversion of a file does, provided that its new
  file is unopposed.
* `Detab.Script.steady_bind`, `Detab.Action.steady_bind` — steady scripts are put together.
* `Detab.Conversion.steady_inTurn` — **all calls are steady.**
* `Detab.Conversion.matchSet_inTurn` — **entries and match sets do not change.**

## Design

Between the requests of a replacement there is a temporary file, so the tree is another one for a
while. Requests that are not about that file are made when it is not there: this is part of being
steady, since what a target stands for is found out by such a request.
-/

namespace Detab

open FileSystem

/-! ## Steady scripts -/

namespace Script

variable {α β : Type}

/-- **A script that keeps the entries of the tree,** if its new files are made where nothing exists
yet: at its end, and whenever it makes a request that is not about a new file. -/
def Steady (script : Script α) : Prop :=
  ∀ fs : FileSystem, script.Maintains Unopposed
    (fun request fs' => request.OfDraft ∨ fs'.WellFormed ∧ fs.SameEntries fs')
    fun fs' => fs'.WellFormed ∧ fs.SameEntries fs'

/-- A script without requests keeps the entries. -/
lemma steady_pure (a : α) : (pure a : Script α).Steady :=
  fun _ _ hsame => hsame

/-- Two scripts one after the other keep the entries, when both of them do. -/
lemma steady_bind {script : Script α} {f : α → Script β} (h : script.Steady)
    (hf : ∀ a, (f a).Steady) : (script >>= f).Steady :=
  fun fs => maintains_bind (h fs) fun a => hf a fs

/-- What is done with the result does not touch the tree. -/
lemma steady_map {script : Script α} {f : α → β} (h : script.Steady) : (f <$> script).Steady :=
  fun fs => maintains_map (h fs)

/-- A request that leaves the tree alone. -/
lemma steady_request {request : Request} (h : request.Still) : (Script.request request).Steady :=
  fun _ => maintains_request h fun _ hsame => .inr hsame

end Script

namespace Action

variable {α β ε δ : Type}

/-- Two actions one after the other keep the entries, when both of them do; the second one is not
run when the first one fails. -/
lemma steady_bind {action : Action ε α} {f : α → Action ε β} (h : Script.Steady action.run)
    (hf : ∀ a, Script.Steady (f a).run) : Script.Steady (action >>= f).run :=
  fun fs => maintains_bind (h fs) fun a => hf a fs

/-- An action that is made of a script keeps the entries when the script does. -/
lemma steady_ofScript {context : δ → ε} {script : Script (Except δ α)} (h : script.Steady) :
    Script.Steady (Action.ofScript context script).run :=
  Script.steady_map h

/-- A script inside an action keeps the entries as it does by itself. -/
lemma steady_lift {script : Script α} (h : script.Steady) :
    Script.Steady (liftM script : Action ε α).run :=
  Script.steady_map h

end Action

namespace Conversion

open Replacement Expansion

variable {platform : Platform} {width : Width} {path : Path} {fs fs' : FileSystem}
  {world world' : World} {moment : Moment}

/-! ## One file -/

/-- **What the conversion of a file does,** provided that its new file is made where nothing exists
yet: it converts the file, or it fails and leaves the tree as it was, up to a file that nothing
names.

**Proof sketch.** Along the requests of the conversion. Reading and logging leave the tree alone,
whatever fault meets them. When there is something to write, the replacement does what
`provided_replace` says, and the tree is that of a file that was converted. -/
lemma provided_convertFile (wf : world.fs.WellFormed) (platform : Platform) (width : Width)
    (path : Path) (h : moment.world = world) :
    (convertFile platform path width).Provided Unopposed (OfFile world.fs .toFile path)
      (fun modified moment => Converted width world.fs path modified moment.world.fs)
      (fun _ moment => AsBefore world.fs moment.world.fs) moment := by
  have hfs : moment.world.fs = world.fs := congrArg World.fs h
  refine Action.provided_bind (Action.provided_ofScript
    (Script.provided_request (.read path) (.inr ⟨hfs, fun _ hnames => hnames⟩) fun fault => ?_))
  cases fault with
  | some fault => exact .inl hfs
  | none =>
    change Action.AtEnd _ _ (moment.world.fs.read path) _
    rw [h]
    cases hread : world.fs.read path with
    | error e => exact .inl hfs
    | ok contents =>
      set moment' : Moment := (moment.after none (.read path)).2
      have h' : moment'.world = world := h
      dsimp only [Action.AtEnd]
      rcases hexpand : expand platform.canReserve contents width with cause | _ | result
      · exact .inl hfs
      · refine Action.provided_bind (Action.provided_lift
          (Script.provided_request (.log _) (.of_not_looksInto hfs fun _ hlooks => hlooks)
            fun fault => ?_))
        have htab := (expand_eq_none_iff platform.canReserve contents width).mp hexpand
        obtain ⟨goal, id, file, hleads, hmode, rfl⟩ := read_eq_ok_iff.mp hread
        have hstill : (Request.log ⟨.debug, s!"No tabs in {Utf8.display path}"⟩).Still := trivial
        change Converted width world.fs path false (moment'.after fault _).2.world.fs
        rw [hstill.fs_after, h']
        exact .kept hleads hmode htab
      · -- there is something to write, so the rest is up to the replacement
        have hreplace := provided_replace wf path (platform.chunks result) h'
        refine Action.provided_bind (Action.provided_ofScript
          (Script.Provided.mono hreplace (fun _ _ hnow => hnow.toFile hread) ?_))
        intro ended moment'' hended
        cases ended with
        | error e => exact hended
        | ok _ =>
          have hdone : Replaced world.fs path (joined (platform.chunks result)) moment''.world.fs :=
            hended
          rw [joined_chunks_expand hexpand] at hdone
          exact converted_of_replaced hread (expand_eq_some hexpand).1 hdone

/-- A conversion of a file that fails in the model, and whose new file was unopposed, leaves the same
tree. -/
lemma sameTree_of_unopposed (wf : world.fs.WellFormed) {e : Error}
    (h : (convertFile platform path width).run.run world = (.error e, world'))
    (hfree : ∀ request fs, (request, fs) ∈
      (convertFile platform path width).run.trace (fun _ => none) (.start world) →
        Unopposed request fs) :
    world.fs.SameTree world'.fs := by
  have hstart : (Moment.start world).world = world := rfl
  have hrun := Script.run_eq_runUnder (convertFile platform path width).run (.start world)
  have hend := (Script.Provided.runUnder (provided_convertFile wf platform width path hstart)
    hfree).2
  rw [hstart, h] at hrun
  obtain ⟨hresult, hworld⟩ := Prod.mk.inj hrun
  rw [← hresult, Action.AtEnd, ← hworld] at hend
  exact hend.sameTree wf

/-- Overwriting a file with its old mode keeps the entries of the tree. -/
lemma sameEntries_of_replaced (wf : fs.WellFormed) {contents : ByteArray}
    (h : Replaced fs path contents fs') : fs'.WellFormed ∧ fs.SameEntries fs' := by
  obtain ⟨parent, name, id, old, hold, rfl⟩ := h
  exact ⟨wf.overwrite hold.node _, sameEntries_overwrite wf hold.node hold.file contents⟩

/-- A conversion leaves the tree well formed, and only the contents of files can tell the new tree
from the old one. -/
lemma sameEntries_of_converted (wf : fs.WellFormed) {modified : Bool}
    (h : Converted width fs path modified fs') : fs'.WellFormed ∧ fs.SameEntries fs' := by
  cases h with
  | kept => exact ⟨wf, .refl fs⟩
  | rewritten hleads =>
    exact ⟨wf.overwrite hleads.node _, sameEntries_overwrite wf hleads.node hleads.file _⟩

/-! ## All calls are steady -/

/-- What is steady about an action that keeps or replaces, and only looks at the tree as it was.

**Proof sketch.** A request is about a new file, or it is made of the tree as it was. At the end the
action has done what keeps the entries, or the tree is as before but for a file that nothing names.
-/
lemma steady_of_provided {α ε : Type} {action : Action ε α} {done : α → FileSystem → FileSystem → Prop}
    (hdone : ∀ a (fs fs' : FileSystem), fs.WellFormed → done a fs fs' →
      fs'.WellFormed ∧ fs.SameEntries fs')
    (h : ∀ moment : Moment, moment.world.fs.WellFormed →
      action.Provided Unopposed (OfTree moment.world.fs)
        (fun a moment' => done a moment.world.fs moment'.world.fs)
        (fun _ moment' => AsBefore moment.world.fs moment'.world.fs) moment) :
    Script.Steady action.run := by
  rintro fs moment ⟨wf, hsame⟩
  refine Script.Provided.mono (h moment wf) (fun request fs' hnow => ?_) fun result moment' hend => ?_
  · rcases hnow with hdraft | rfl
    · exact .inl hdraft
    · exact .inr ⟨wf, hsame⟩
  · cases result with
    | ok a =>
      obtain ⟨wf', hkept⟩ := hdone a _ _ wf hend
      exact ⟨wf', hsame.trans hkept⟩
    | error e => exact ⟨hend.wellFormed wf, hsame.trans (hend.sameEntries wf)⟩

/-- **A replacement keeps the entries,** when its temporary file is made where nothing exists yet:
its request to make a file adds a name for a while, and this name is gone when the replacement is
over. -/
lemma steady_replace (path : Path) (chunks : List ByteArray) :
    Script.Steady (replace path chunks).run :=
  steady_of_provided (fun _ _ _ wf hdone => sameEntries_of_replaced wf hdone)
    fun _ wf => (provided_replace wf path chunks rfl).mono (fun _ _ hnow => hnow.ofTree)
      (fun _ _ hend => hend) fun _ _ hend => hend

/-- The conversion of one file keeps the entries, whether it succeeds or not. -/
lemma steady_convertFile (platform : Platform) (path : Path) (width : Width) :
    Script.Steady (convertFile platform path width).run :=
  steady_of_provided (fun _ _ _ wf hdone => sameEntries_of_converted wf hdone)
    fun _ wf => (provided_convertFile wf platform width path rfl).mono (fun _ _ hnow => hnow.ofTree)
      (fun _ _ hend => hend) fun _ _ hend => hend

/-- Conversions of several files keep the entries, by induction on the list of their paths. -/
lemma steady_convertAll (platform : Platform) (width : Width) (paths : List Path) :
    Script.Steady (convertAll platform width paths).run := by
  induction paths with
  | nil => exact Script.steady_pure _
  | cons path rest ih =>
    refine Action.steady_bind (Action.steady_ofScript (Script.steady_request trivial)) fun _ => ?_
    refine Action.steady_bind (steady_convertFile platform path width) fun _ => ?_
    exact Action.steady_bind ih fun _ => Script.steady_pure _

/-- Logging what was skipped leaves the tree alone. -/
lemma steady_logSkipped (skipped : List (Path × IoError)) : (logSkipped skipped).Steady := by
  induction skipped with
  | nil => exact Script.steady_pure _
  | cons entry rest ih => exact Script.steady_bind (Script.steady_request trivial) fun _ => ih

/-- Finding the match set leaves the tree alone. -/
lemma steady_matchSet (pattern : Pattern) (target : Path) : (matchSet pattern target).Steady := by
  refine Script.steady_bind (Script.steady_request trivial) fun surveyed => ?_
  exact Script.steady_bind (steady_logSkipped _) fun _ => Script.steady_pure _

/-- A call with one target keeps the entries, when its temporary files are made where nothing exists
yet. -/
lemma steady_convert (platform : Platform) (config : Config) (target : Path) :
    Script.Steady (convert platform config target).run := by
  refine Action.steady_bind (Action.steady_lift (steady_matchSet config.pattern target)) fun paths => ?_
  refine Action.steady_bind (steady_convertAll platform config.width paths) fun modified => ?_
  exact Action.steady_bind (Action.steady_lift (Script.steady_request trivial)) fun _ =>
    Script.steady_pure _

/-- **A call with any arguments.** -/
inductive Call where
  | replace (path : Path) (chunks : List ByteArray)
  | convertFile (path : Path) (width : Width)
  | convert (config : Config) (target : Path)

/-- The script of a call, whether it succeeds or fails. -/
def Call.script (platform : Platform) : Call → Script Unit
  | replace path chunks => (fun _ => ()) <$> (Replacement.replace path chunks).run
  | convertFile path width => (fun _ => ()) <$> (Conversion.convertFile platform path width).run
  | convert config target => (fun _ => ()) <$> (Conversion.convert platform config target).run

/-- Calls, one after the other; a failure does not keep the next ones from being made. -/
def inTurn (platform : Platform) : List Call → Script Unit
  | [] => pure ()
  | call :: rest => do
    call.script platform
    inTurn platform rest

/-- Every call keeps the entries, one that is about a whole target and one that is about a single
file. -/
lemma Call.steady_script (platform : Platform) (call : Call) : (call.script platform).Steady := by
  cases call with
  | replace path chunks => exact Script.steady_map (steady_replace path chunks)
  | convertFile path width => exact Script.steady_map (steady_convertFile platform path width)
  | convert config target => exact Script.steady_map (steady_convert platform config target)

/-- **All calls are steady,** one after the other. -/
lemma steady_inTurn (platform : Platform) (calls : List Call) : (inTurn platform calls).Steady := by
  induction calls with
  | nil => exact Script.steady_pure ()
  | cons call rest ih => exact Script.steady_bind (call.steady_script platform) fun _ => ih

/-- Calls in turn can be cut anywhere: those before the cut, and then those behind it. -/
lemma inTurn_append (platform : Platform) (before after : List Call) :
    inTurn platform (before ++ after) =
      (inTurn platform before >>= fun _ => inTurn platform after) := by
  induction before with
  | nil => rfl
  | cons call before ih => simp only [List.cons_append, inTurn, ih, bind_assoc]

/-! ## Entries and match sets -/

/-- Trees with the same entries have the same match sets, in the same order. -/
lemma matched_of_sameEntries (h : fs.SameEntries fs') (pattern : Pattern) (target : Path) :
    matched fs' pattern target = matched fs pattern target := by
  rw [matched, matched, h.survey]

/-- Trees with the same entries give the same warnings about directories that cannot be read. -/
lemma warnings_of_sameEntries (h : fs.SameEntries fs') (target : Path) :
    warnings fs' target = warnings fs target := by
  rw [warnings, warnings, h.survey]

/-- **Entries and match sets do not change,** whatever calls are made and wherever they fail, if new
files are made only where nothing exists yet. Let `fs` be the tree after some of the calls, or one in
which a call finds out what its target stands for. Then every place holds in `fs` what it held at
first, up to the contents of files. Every target stands for the same paths, and the log tells of the
same directories that had to be left out. Nothing is at the place of any temporary file, so no path of
a match set leads there.

**Proof sketch.** All calls are steady, and what a target stands for is found out by a request that is
not about a new file. The temporary files are made in trees with the same entries, too, where nothing
is at their places. -/
theorem matchSet_inTurn (wf : world.fs.WellFormed) (platform : Platform) (before after : List Call)
    (faults : Faults) {trace : List (Request × FileSystem)}
    (htrace : (inTurn platform (before ++ after)).trace faults (.start world) = trace)
    (hfree : ∀ request fs, (request, fs) ∈ trace → Unopposed request fs) {fs : FileSystem}
    (hfs : fs = ((inTurn platform before).runUnder faults (.start world)).2.world.fs ∨
      ∃ target, (.survey target, fs) ∈ trace) :
    (∀ place, (fs.entry? place = none ↔ world.fs.entry? place = none) ∧
      (fs.item? place).map Item.bare = (world.fs.item? place).map Item.bare) ∧
    ∀ pattern target session, ∃ paths session',
      (matchSet pattern target).run ⟨world.fs, session⟩ = (paths, ⟨world.fs, session'⟩) ∧
      (matchSet pattern target).run ⟨fs, session⟩ = (paths, ⟨fs, session'⟩) ∧
      ∀ temporary fs' place, (.createNew temporary, fs') ∈ trace →
        fs'.lastPlace? temporary = some place →
          fs.entry? place = none ∧ ∀ path ∈ paths, fs.resolve .toEntry path ≠ .ok place := by
  subst htrace
  have hstart : (Moment.start world).world.fs.WellFormed ∧
      world.fs.SameEntries (Moment.start world).world.fs := ⟨wf, .refl _⟩
  obtain ⟨hnow, -⟩ := (steady_inTurn platform (before ++ after) _ _ hstart).runUnder hfree
  obtain ⟨wf', hsame⟩ : fs.WellFormed ∧ world.fs.SameEntries fs := by
    rcases hfs with rfl | ⟨target, hasked⟩
    · refine ((steady_inTurn platform before _ _ hstart).runUnder fun request fs hmem => ?_).2
      refine hfree request fs ?_
      rw [inTurn_append, Script.trace_bind]
      exact List.mem_append_left _ hmem
    · exact (hnow _ _ hasked).resolve_left id
  refine ⟨fun place => ⟨hsame.entry?_eq_none_iff place, hsame.item place⟩,
    fun pattern target session => ?_⟩
  refine ⟨_, _, run_matchSet pattern target ⟨world.fs, session⟩, ?_, ?_⟩
  · rw [run_matchSet, matched_of_sameEntries hsame, warnings_of_sameEntries hsame]
  · intro temporary fs' place hmade hplace
    obtain ⟨-, hsame'⟩ := (hnow _ _ hmade).resolve_left id
    have hnone : fs.entry? place = none := by
      rw [hsame.entry?_eq_none_iff, ← hsame'.entry?_eq_none_iff]
      exact vacant_iff.mp (hfree _ _ hmade) place hplace
    exact ⟨hnone, fun path _ hgoal => wf'.entry?_ne_none_of_resolve hgoal hnone⟩

/-- A conversion that fails when it gives a file its name, and a replacement through a link. -/
theorem matchSet_inTurn_aliased :
    let world : World := ⟨aliased ⟨pack [9], 0o600⟩, .start 7 (fun n => n) none⟩
    let faults : Faults := fun n => if n = 10 then some ⟨.busy, 0⟩ else none
    let calls := [Call.convert .standard (utf8 "d"), .replace (utf8 "d/b.java") [pack [32]]]
    let fs := ((inTurn .standard calls).runUnder faults (.start world)).2.world.fs
    fs.item? [utf8 "d", utf8 "a.java"] = some (.file (pack [32]) 0o600) ∧
      (fs.item? [utf8 "d", utf8 "c"]).map Item.bare = some (.file .empty 0o600) ∧
      ∃ session', (matchSet Config.standard.pattern (utf8 "d")).run ⟨fs, .start 8 (fun n => n) none⟩ =
        ([utf8 "d/a.java", utf8 "d/b.java"], ⟨fs, session'⟩) := by
  intro world faults calls fs
  have hfree : ∀ asked ∈ (inTurn .standard (calls ++ [])).trace faults (.start world),
      Unopposed asked.1 asked.2 := by
    decide +kernel
  obtain ⟨hentries, hmatch⟩ := matchSet_inTurn (wellFormed_aliased ⟨pack [9], 0o600⟩) .standard
    calls [] faults rfl (fun request fs hmem => hfree (request, fs) hmem) (.inl rfl)
  obtain ⟨paths, session', hbefore, hafter, -⟩ :=
    hmatch Config.standard.pattern (utf8 "d") (.start 8 (fun n => n) none)
  have hpaths : ((matchSet Config.standard.pattern (utf8 "d")).run
      ⟨world.fs, .start 8 (fun n => n) none⟩).1 = [utf8 "d/a.java", utf8 "d/b.java"] := by
    decide +kernel
  obtain rfl : paths = [utf8 "d/a.java", utf8 "d/b.java"] := by rw [← hpaths, hbefore]
  have hmode : (world.fs.item? [utf8 "d", utf8 "c"]).map Item.bare =
      some (.file .empty 0o600) := by
    decide +kernel
  exact ⟨by decide +kernel, (hentries _).2.trans hmode, session', hafter⟩

end Conversion

end Detab
