import Detab.Proofs.Conversion.OneFile
import Detab.Proofs.Running.Actions

set_option relaxedAutoImplicit false
set_option autoImplicit false

/-!
# Converting all files of a target

The paths that a target stands for are found first and are then converted one after the other. Two of
them may lead to one file, and a file may have more names than the ones that are found. This file
says what a conversion that succeeds has made of every place of the tree.

## Main definitions

* `Detab.Conversion.matched` — the paths that a target stands for.
* `Detab.Conversion.Expands` — what becomes of a tree when the files at some places are expanded.
* `Detab.Conversion.Reached` — the places that some paths lead to.

## Main results

* `Detab.Conversion.Expands.trans` — **expanding some files and then others is expanding all of
  them,** also when they are the same.
* `Detab.Conversion.expands_of_convertAll` — what a conversion of some paths makes of a tree.
* `Detab.Conversion.item?_of_convert` — **the tree after a conversion.**

## Design

An expansion holds no tab, so expanding it again changes nothing. What has been done stays done, and
the order of the paths does not count.
-/

namespace Detab.Conversion

open FileSystem Expansion

variable {platform : Platform} {width : Width} {path : Path} {world world' : World}
  {fs fs' fs'' : FileSystem} {reached reached' : Place → Prop}

/-! ## Expanding what places hold -/

/-- A file without a tab is its own expansion, whatever the width is. -/
lemma expanded_of_notMem {contents : ByteArray} (h : tab ∉ unpack contents) :
    expanded width contents = contents := by
  rw [expanded, substitute_of_notMem _ h, pack_unpack]

/-- No tab is left in an expansion, whatever the width is. -/
lemma tab_notMem_expanded (width : Width) (contents : ByteArray) :
    tab ∉ unpack (expanded width contents) :=
  tab_notMem_substitute _ _

/-- What a place holds when its tabs have been replaced. -/
def expandItem (width : Width) : Item → Item
  | .file contents mode => .file (expanded width contents) mode
  | .link target => .link target
  | .directory mode => .directory mode

/-- **A second expansion changes nothing,** so it does not matter how often a file is visited. -/
lemma expandItem_expandItem (item : Item) :
    expandItem width (expandItem width item) = expandItem width item := by
  cases item with
  | file contents mode =>
    simp only [expandItem, expanded_of_notMem (tab_notMem_expanded width contents)]
  | link target => rfl
  | directory mode => rfl

/-- **What becomes of a tree when the files at some places are expanded:** walks are the same, those
places hold the expansions of what they held, and all others hold what they held. -/
structure Expands (width : Width) (reached : Place → Prop) (fs fs' : FileSystem) : Prop where
  wellFormed : fs'.WellFormed
  keeps : fs.Keeps fs'
  kept : fs'.Keeps fs
  item_of_reached : ∀ place, reached place →
    fs'.item? place = (fs.item? place).map (expandItem width)
  item_of_not : ∀ place, ¬ reached place → fs'.item? place = fs.item? place

namespace Expands

/-- **Expanding some files and then others is expanding all of them.** -/
lemma trans (h : Expands width reached fs fs') (h' : Expands width reached' fs' fs'') :
    Expands width (fun place => reached place ∨ reached' place) fs fs'' := by
  refine ⟨h'.wellFormed, h.keeps.trans h'.keeps, h'.kept.trans h.kept, fun place hplace => ?_,
    fun place hplace => ?_⟩
  · by_cases hfirst : reached place <;> by_cases hsecond : reached' place
    · rw [h'.item_of_reached place hsecond, h.item_of_reached place hfirst, Option.map_map]
      congr 1
      funext item
      exact expandItem_expandItem item
    · rw [h'.item_of_not place hsecond, h.item_of_reached place hfirst]
    · rw [h'.item_of_reached place hsecond, h.item_of_not place hfirst]
    · exact absurd hplace (not_or_intro hfirst hsecond)
  · obtain ⟨hfirst, hsecond⟩ := not_or.mp hplace
    rw [h'.item_of_not place hsecond, h.item_of_not place hfirst]

/-- Paths lead where they led. -/
lemma resolve_iff (h : Expands width reached fs fs') (path : Path) (place : Place) :
    fs'.resolve .toFile path = .ok place ↔ fs.resolve .toFile path = .ok place :=
  ⟨h.kept.resolve, h.keeps.resolve⟩

/-- No place has come or gone. -/
lemma entry?_eq_none_iff (h : Expands width reached fs fs') (place : Place) :
    fs'.entry? place = none ↔ fs.entry? place = none := by
  rw [← shape?_eq_none_iff, ← shape?_eq_none_iff, Option.eq_none_iff_forall_ne_some,
    Option.eq_none_iff_forall_ne_some]
  exact ⟨fun hnone shape hshape => hnone shape (h.keeps.shape place shape hshape),
    fun hnone shape hshape => hnone shape (h.kept.shape place shape hshape)⟩

/-- What can be read afterwards could be read before.

**Proof sketch.** The path leads to the same place in both trees. If that place was expanded, it
held a file of the same mode before; if not, it held what it holds. -/
lemma exists_read (h : Expands width reached fs fs') {contents : ByteArray}
    (hread : fs'.read path = .ok contents) : ∃ contents, fs.read path = .ok contents := by
  obtain ⟨place, mode, hplace, hitem, hmode⟩ := read_eq_ok_iff_item?.mp hread
  have hbefore : ∃ contents, fs.item? place = some (.file contents mode) := by
    by_cases hreached : reached place
    · rw [h.item_of_reached place hreached] at hitem
      obtain ⟨item, hold, hexpand⟩ := Option.map_eq_some_iff.mp hitem
      cases item with
      | file contents' mode' =>
        obtain ⟨-, rfl⟩ := Item.file.inj hexpand
        exact ⟨contents', hold⟩
      | link target => simp [expandItem] at hexpand
      | directory mode' => simp [expandItem] at hexpand
    · exact ⟨contents, (h.item_of_not place hreached).symm.trans hitem⟩
  obtain ⟨old, hold⟩ := hbefore
  exact ⟨old, read_eq_ok_iff_item?.mpr
    ⟨place, mode, (h.resolve_iff path place).mp hplace, hold, hmode⟩⟩

end Expands

/-- The places that some paths lead to. -/
def Reached (fs : FileSystem) (paths : List Path) (place : Place) : Prop :=
  ∃ path ∈ paths, fs.resolve .toFile path = .ok place

/-- Nothing to be expanded: the tree is as it was. -/
lemma expands_nil (wf : fs.WellFormed) : Expands width (Reached fs []) fs fs :=
  ⟨wf, .refl fs, .refl fs, fun _ ⟨_, hpath, _⟩ => absurd hpath List.not_mem_nil, fun _ _ => rfl⟩

/-- The places that some paths lead to, and then the places that others lead to afterwards. -/
lemma Expands.append {first paths : List Path} (h : Expands width (Reached fs first) fs fs')
    (h' : Expands width (Reached fs' paths) fs' fs'') :
    Expands width (Reached fs (first ++ paths)) fs fs'' := by
  have hplaces : (fun place => Reached fs first place ∨ Reached fs' paths place) =
      Reached fs (first ++ paths) := by
    funext place
    simp [Reached, h.resolve_iff, or_and_right, exists_or]
  exact hplaces ▸ h.trans h'

/-- **Converting a file** expands it at the place that the path leads to.

**Proof sketch.** A file that is kept has no tab, so it is its own expansion. A file that is
rewritten is overwritten at its place, which is the only place that the path reaches; nothing else
changes there. -/
lemma Converted.expands {modified : Bool} (wf : fs.WellFormed)
    (h : Converted width fs path modified fs') : Expands width (Reached fs [path]) fs fs' := by
  have hreached : ∀ place, Reached fs [path] place ↔ fs.resolve .toFile path = .ok place := by
    simp [Reached]
  cases h with
  | @kept goal id file hleads _ htab =>
    refine ⟨wf, .refl fs, .refl fs, fun place hplace => ?_, fun _ _ => rfl⟩
    obtain rfl : place = goal :=
      Except.ok.inj (((hreached place).mp hplace).symm.trans hleads.resolve)
    simp only [hleads.item?, Option.map_some, expandItem, expanded_of_notMem htab]
  | @rewritten parent name id file hleads _ _ =>
    have hnode := hleads.node
    refine ⟨wf.overwrite hnode _, keeps_overwrite hnode _, overwrite_keeps hnode _,
      fun place hplace => ?_, fun place hplace => ?_⟩
    · obtain rfl : place = parent ++ [name] :=
        Except.ok.inj (((hreached place).mp hplace).symm.trans hleads.resolve)
      rw [item?_overwrite hnode wf, if_pos rfl, hleads.item?]
      rfl
    · have hne : place ≠ parent ++ [name] :=
        fun heq => hplace ((hreached place).mpr (heq ▸ hleads.resolve))
      rw [item?_overwrite hnode wf, if_neg hne]

/-! ## Runs -/

/-- A conversion of a file that succeeds in the model. -/
lemma converted_of_run (wf : world.fs.WellFormed) {modified : Bool}
    (h : (convertFile platform path width).run.run world = (.ok modified, world')) :
    Converted width world.fs path modified world'.fs := by
  have hstart : (Moment.start world).world = world := rfl
  obtain ⟨asked, hend⟩ := (throughout_convertFile wf platform width path hstart).run
  rw [hstart, h] at hend
  exact hend

/-- What was converted could be read. -/
lemma Converted.exists_read {modified : Bool} (h : Converted width fs path modified fs') :
    ∃ contents, fs.read path = .ok contents := by
  cases h with
  | kept hleads hmode _ => exact ⟨_, read_eq_ok_iff.mpr ⟨_, _, _, hleads, hmode, rfl⟩⟩
  | rewritten hleads hmode _ => exact ⟨_, read_eq_ok_iff.mpr ⟨_, _, _, hleads, hmode, rfl⟩⟩

/-- Announcing a file changes no tree. -/
lemma run_print (path : Path) (world : World) :
    (Action.ofScript Error.output (.request (.print (notice path)))).run.run world =
      ((world.session.print (notice path)).1.mapError .output,
        ⟨world.fs, (world.session.print (notice path)).2⟩) :=
  Action.run_ofScript _ _ _

/-- The world after a file has been announced. -/
def announced (world : World) (path : Path) : World :=
  ⟨world.fs, { world.session with written := world.session.written ++ notice path }⟩

/-- What was accepted has been written. -/
lemma print_eq_of_ok {session : Session} {bytes : Bytes} (h : (session.print bytes).1 = .ok ()) :
    (session.print bytes).2 = { session with written := session.written ++ bytes } := by
  cases hlimit : session.limit with
  | none => simp only [Session.print, hlimit]
  | some limit =>
    simp only [Session.print, hlimit] at h ⊢
    split at h
    · rename_i hfits
      rw [List.take_of_length_le hfits]
    · simp at h

/-- **Where some files are converted,** the first of them has been announced and converted, and then the
others. -/
lemma exists_of_convertAll_cons {rest : List Path} {count : Nat}
    (h : (convertAll platform width (path :: rest)).run.run world = (.ok count, world')) :
    ∃ modified world₁ others,
      (convertFile platform path width).run.run (announced world path) = (.ok modified, world₁) ∧
      (convertAll platform width rest).run.run world₁ = (.ok others, world') ∧
      count = others + modified.toNat := by
  obtain ⟨_, world₀, hprint, h⟩ := Action.run_bind_eq_ok h
  obtain ⟨modified, world₁, hfile, h⟩ := Action.run_bind_eq_ok h
  obtain ⟨others, world₂, hrest, h⟩ := Action.run_bind_eq_ok h
  obtain ⟨hcount, rfl⟩ := Prod.mk.inj h
  rw [run_print] at hprint
  obtain ⟨haccepted, rfl⟩ := Prod.mk.inj hprint
  rw [print_eq_of_ok (Action.mapError_eq_ok_iff.mp haccepted)] at hfile
  exact ⟨modified, world₁, others, hfile, hrest, (Except.ok.inj hcount).symm⟩

/-- **What a conversion of some paths makes of a tree,** in which all of them could be read.

**Proof sketch.** Induction on the paths. The first conversion changes nothing for walks, so the
others lead where they led before it. -/
lemma expands_of_convertAll {paths : List Path} {count : Nat} (wf : world.fs.WellFormed)
    (h : (convertAll platform width paths).run.run world = (.ok count, world')) :
    Expands width (Reached world.fs paths) world.fs world'.fs ∧
      ∀ path ∈ paths, ∃ contents, world.fs.read path = .ok contents := by
  induction paths generalizing world count with
  | nil =>
    obtain ⟨-, rfl⟩ := Prod.mk.inj h
    exact ⟨expands_nil wf, by simp⟩
  | cons path rest ih =>
    obtain ⟨modified, world₁, others, hfile, hrest, -⟩ := exists_of_convertAll_cons h
    have wf₀ : (announced world path).fs.WellFormed := wf
    have hconverted : Converted width world.fs path modified world₁.fs := converted_of_run wf₀ hfile
    have hfirst := hconverted.expands wf
    obtain ⟨hothers, hreadable⟩ := ih hfirst.wellFormed hrest
    refine ⟨hfirst.append hothers, fun path' hpath' => ?_⟩
    rcases List.mem_cons.mp hpath' with rfl | hpath'
    · exact hconverted.exists_read
    · obtain ⟨contents, hread⟩ := hreadable path' hpath'
      exact hfirst.exists_read hread

/-! ## The whole conversion -/

/-- **The paths that a target stands for.** -/
def matched (fs : FileSystem) (pattern : Pattern) (target : Path) : List Path :=
  (fs.survey target).matchSet pattern target

/-- The lines that tell of the directories that a target has to leave out. -/
def warnings (fs : FileSystem) (target : Path) : List LogLine :=
  ((fs.survey target).skipped target).map fun (path, cause) => ⟨.warn, skipLine path cause⟩

/-- Telling of what was left out adds to the log only. -/
lemma run_logSkipped (skipped : List (Path × IoError)) (world : World) :
    (logSkipped skipped).run world =
      ((), ⟨world.fs, { world.session with
        log := world.session.log ++
          skipped.map fun (path, cause) => ⟨.warn, skipLine path cause⟩ }⟩) := by
  induction skipped generalizing world with
  | nil => simp [logSkipped]
  | cons entry rest ih =>
    obtain ⟨path, cause⟩ := entry
    refine (ih ⟨world.fs, world.session.addLine ⟨.warn, skipLine path cause⟩⟩).trans ?_
    simp [Session.addLine]

/-- Finding out what a target stands for adds to the log only. -/
lemma run_matchSet (pattern : Pattern) (target : Path) (world : World) :
    (matchSet pattern target).run world =
      (matched world.fs pattern target,
        ⟨world.fs, { world.session with
          log := world.session.log ++ warnings world.fs target }⟩) := by
  have hsurvey : world.answer (.survey target) = (world.fs.survey target, world) := rfl
  rw [matchSet, Script.run_bind, Script.run_request, hsurvey, Script.run_bind, run_logSkipped]
  rfl

/-- Finding the match set leaves the tree alone and finds what matches in it; of the session only
the log can change, by the warnings. -/
lemma exists_run_matchSet (pattern : Pattern) (target : Path) (world : World) :
    ∃ log, (matchSet pattern target).run world =
      (matched world.fs pattern target, ⟨world.fs, { world.session with log := log }⟩) :=
  ⟨_, run_matchSet pattern target world⟩

/-- The line that sums up a conversion. -/
def summaryLine (target : Path) (modified matched : Nat) : LogLine :=
  ⟨.debug, s!"{Utf8.display target}: {modified} of {matched} matching files modified"⟩

/-- **A conversion of a target is a conversion of all paths that it stands for,** between lines of the
log. -/
lemma run_convert (platform : Platform) (config : Config) (target : Path) (world : World) :
    let paths := matched world.fs config.pattern target
    (convert platform config target).run.run world =
      match (convertAll platform config.width paths).run.run
        ⟨world.fs, { world.session with
          log := world.session.log ++ warnings world.fs target }⟩ with
      | (.ok modified, ended) =>
        (.ok ⟨paths.length, modified⟩,
          ⟨ended.fs, ended.session.addLine (summaryLine target modified paths.length)⟩)
      | (.error e, ended) => (.error e, ended) := by
  intro paths
  rw [convert, Action.run_bind, Action.run_lift, run_matchSet]
  dsimp only
  rw [Action.run_bind]
  rcases (convertAll platform config.width paths).run.run
    ⟨world.fs, { world.session with
      log := world.session.log ++ warnings world.fs target }⟩ with ⟨e | modified, ended⟩ <;> rfl

/-- A conversion of a target, apart from the log. -/
lemma exists_run_convert (platform : Platform) (config : Config) (target : Path) (world : World) :
    ∃ log, ∀ result world₁,
      (convertAll platform config.width (matched world.fs config.pattern target)).run.run
        ⟨world.fs, { world.session with log := log }⟩ = (result, world₁) →
      ∃ log', (convert platform config target).run.run world =
        (result.map fun count => ⟨(matched world.fs config.pattern target).length, count⟩,
          ⟨world₁.fs, { world₁.session with log := log' }⟩) := by
  refine ⟨world.session.log ++ warnings world.fs target, fun result world₁ hall => ?_⟩
  rw [run_convert, hall]
  cases result with
  | error e => exact ⟨world₁.session.log, rfl⟩
  | ok count => exact ⟨_, rfl⟩

/-- A conversion that succeeds has converted all paths that its target stands for. -/
lemma exists_convertAll_of_convert {config : Config} {target : Path} {summary : Summary}
    (h : (convert platform config target).run.run world = (.ok summary, world')) :
    ∃ world₀ count world₁, world₀.fs = world.fs ∧
      (convertAll platform config.width (matched world.fs config.pattern target)).run.run world₀ =
        (.ok count, world₁) ∧ world'.fs = world₁.fs := by
  obtain ⟨log, hconvert⟩ := exists_run_convert platform config target world
  rcases hall : (convertAll platform config.width
      (matched world.fs config.pattern target)).run.run
        ⟨world.fs, { world.session with log := log }⟩ with ⟨e | count, world₁⟩
  · obtain ⟨log', hrun⟩ := hconvert _ _ hall
    simp [h, Except.map] at hrun
  · obtain ⟨log', hrun⟩ := hconvert _ _ hall
    obtain ⟨-, rfl⟩ := Prod.mk.inj (h.symm.trans hrun)
    exact ⟨⟨world.fs, { world.session with log := log }⟩, count, world₁, rfl, hall, rfl⟩

/-- **The tree after a conversion that has succeeded.** A file that some path of the target leads to,
through whatever links, is the expansion of what it was, with the same mode. Every other place holds
what it held, and none has come or gone. Every path of the target reads without tabs.

**Proof sketch.** The conversion runs through the match set in the tree as it was, and its loop
expands the places that the paths reach. A place that is reached but is not among those of the
statement holds a file without tabs, which is its own expansion. -/
theorem item?_of_convert (wf : world.fs.WellFormed) {config : Config} {target : Path}
    {summary : Summary}
    (h : (convert platform config target).run.run world = (.ok summary, world')) :
    (∀ path ∈ matched world.fs config.pattern target, ∀ place contents mode,
      world.fs.resolve .toFile path = .ok place →
        world.fs.item? place = some (.file contents mode) → tab ∈ unpack contents →
          world'.fs.item? place =
            some (.file (pack (substitute config.width.toNat (unpack contents))) mode)) ∧
    (∀ place, (¬ ∃ path ∈ matched world.fs config.pattern target, ∃ contents mode,
      world.fs.resolve .toFile path = .ok place ∧
        world.fs.item? place = some (.file contents mode) ∧ tab ∈ unpack contents) →
          world'.fs.item? place = world.fs.item? place) ∧
    (∀ place, world'.fs.entry? place = none ↔ world.fs.entry? place = none) ∧
    ∀ path ∈ matched world.fs config.pattern target,
      ∃ contents, world'.fs.read path = .ok contents ∧ tab ∉ unpack contents := by
  obtain ⟨world₀, count, world₁, hbefore, hall, hafter⟩ := exists_convertAll_of_convert h
  obtain ⟨hexpands, hreadable⟩ := expands_of_convertAll (hbefore ▸ wf) hall
  rw [hbefore] at hexpands hreadable
  rw [hafter]
  refine ⟨fun path hpath place contents mode hplace hitem _ => ?_, fun place hnone => ?_,
    fun place => ?_, fun path hpath => ?_⟩
  · rw [hexpands.item_of_reached place ⟨path, hpath, hplace⟩, hitem]
    rfl
  · by_cases hreached : ∃ path ∈ matched world.fs config.pattern target,
        world.fs.resolve .toFile path = .ok place
    · -- the place is reached, so it holds a file, and this file has no tab
      rw [hexpands.item_of_reached place hreached]
      obtain ⟨path, hpath, hplace⟩ := hreached
      obtain ⟨contents, hread⟩ := hreadable path hpath
      obtain ⟨place', mode, hplace', hitem, -⟩ := read_eq_ok_iff_item?.mp hread
      obtain rfl : place = place' := Except.ok.inj (hplace.symm.trans hplace')
      have htab : tab ∉ unpack contents :=
        fun htab => hnone ⟨path, hpath, contents, mode, hplace, hitem, htab⟩
      rw [hitem, Option.map_some, expandItem, expanded_of_notMem htab]
    · exact hexpands.item_of_not place hreached
  · exact hexpands.entry?_eq_none_iff place
  · obtain ⟨contents, hread⟩ := hreadable path hpath
    obtain ⟨place, mode, hplace, hitem, hmode⟩ := read_eq_ok_iff_item?.mp hread
    refine ⟨expanded config.width contents, read_eq_ok_iff_item?.mpr
      ⟨place, mode, (hexpands.resolve_iff path place).mpr hplace, ?_, hmode⟩,
      tab_notMem_expanded _ _⟩
    rw [hexpands.item_of_reached place ⟨path, hpath, hplace⟩, hitem]
    rfl

/-- A conversion of a file under its name and through a symbolic link. Its other name is no path of
the target. -/
theorem item?_of_convert_aliased :
    let world : World := ⟨aliased ⟨pack [9], 0o600⟩, .start 7 (fun n => n) none⟩
    ∃ world', (convert .standard .standard (utf8 "d")).run.run world = (.ok ⟨2, 1⟩, world') ∧
      world'.fs.item? [utf8 "d", utf8 "a.java"] = some (.file (pack [32, 32, 32, 32]) 0o600) ∧
      world'.fs.item? [utf8 "d", utf8 "c"] = some (.file (pack [9]) 0o600) := by
  intro world
  have hok : ((convert .standard .standard (utf8 "d")).run.run world).1 = .ok ⟨2, 1⟩ := by
    decide +kernel
  have hmatched : matched world.fs Config.standard.pattern (utf8 "d") =
      [utf8 "d/a.java", utf8 "d/b.java"] := by
    decide +kernel
  have hrun : (convert .standard .standard (utf8 "d")).run.run world =
      (.ok ⟨2, 1⟩, ((convert .standard .standard (utf8 "d")).run.run world).2) := Prod.ext hok rfl
  obtain ⟨hexpanded, hkept, -, -⟩ := item?_of_convert (wellFormed_aliased ⟨pack [9], 0o600⟩) hrun
  refine ⟨_, hrun, ?_, ?_⟩
  · exact hexpanded (utf8 "d/b.java") (by rw [hmatched]; simp) _ (pack [9]) 0o600
      (by decide +kernel) (by decide +kernel) (by decide +kernel)
  · refine (hkept _ ?_).trans (by decide +kernel)
    rintro ⟨path, hpath, contents, mode, hplace, -⟩
    rw [hmatched] at hpath
    revert hplace
    simp only [List.mem_cons, List.not_mem_nil, or_false] at hpath
    rcases hpath with rfl | rfl <;> decide +kernel

end Detab.Conversion
