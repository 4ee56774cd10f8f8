import Detab.Proofs.Conversion.Repeating

set_option relaxedAutoImplicit false
set_option autoImplicit false

/-!
# What a conversion counts

A conversion visits the paths of its target one after the other, and several of them may lead to one
place. It counts a visit when it finds a tab. Its own writes change what later visits find: a second
path to a place finds no tab there, while a second name of the same file still has the old contents.
This file says, by the tree as it was at first, which visits are counted and what the log tells.

## Main definitions

* `Detab.Conversion.Changes` — a visit that changes a file, by the tree as it was at first.
* `Detab.Conversion.idle` — the visits that change nothing, in order.

## Main results

* `Detab.Conversion.Expands.hasTab_iff_changes` — **a visit finds a tab** if there was one at first,
  and no visit before it led to the same place.
* `Detab.Conversion.log_of_convertAll` — what the log tells of some visits.
* `Detab.Conversion.mem_touched_iff` — which places are changed by some visits.
* `Detab.Conversion.counts_of_convert` — **what a conversion counts.**
-/

namespace Detab.Conversion

open FileSystem Expansion

variable {platform : Platform} {width : Width} {path : Path} {before paths : List Path}
  {count : Nat} {fs fs' : FileSystem} {world world' : World}

/-! ## Visits -/

/-- **A visit that changes a file,** after some others: there is a tab in the file that the path leads
to, and none of the paths before leads to the same place. -/
def Changes (fs : FileSystem) (before : List Path) (path : Path) : Prop :=
  HasTab fs path ∧ ∀ earlier ∈ before, fs.resolve .toFile earlier ≠ fs.resolve .toFile path

/-- Whether a visit changes a file can be computed: the file is read, and the places of the paths
before are compared. -/
instance (fs : FileSystem) (before : List Path) (path : Path) : Decidable (Changes fs before path) :=
  inferInstanceAs (Decidable (_ ∧ _))

/-- **The visits that change nothing,** after some others, in order. -/
def idle (fs : FileSystem) : (before : List Path) → List Path → List Path
  | _, [] => []
  | before, path :: rest =>
    if Changes fs before path then idle fs (before ++ [path]) rest
    else path :: idle fs (before ++ [path]) rest

/-- **A visit finds a tab** if there was one at first, and no visit before it led to the same place.

**Proof sketch.** At a place that was visited there is the expansion of what was there, and it has no
tab. Every other place holds what it held at first. -/
lemma Expands.hasTab_iff_changes (h : Expands width (Reached fs before) fs fs') {contents : ByteArray}
    (hread : fs'.read path = .ok contents) : HasTab fs' path ↔ Changes fs before path := by
  obtain ⟨place, mode, hplace', hitem, hmode⟩ := read_eq_ok_iff_item?.mp hread
  have hplace := (h.resolve_iff path place).mp hplace'
  by_cases hreached : Reached fs before place
  · refine iff_of_false ?_ ?_
    · rintro ⟨contents', hread', htab⟩
      obtain rfl : contents = contents' := Except.ok.inj (hread.symm.trans hread')
      rw [h.item_of_reached place hreached] at hitem
      obtain ⟨item, -, hexpand⟩ := Option.map_eq_some_iff.mp hitem
      cases item with
      | file old oldMode =>
        obtain ⟨rfl, -⟩ := Item.file.inj hexpand
        exact tab_notMem_expanded width old htab
      | link target => simp [expandItem] at hexpand
      | directory oldMode => simp [expandItem] at hexpand
    · rintro ⟨-, hnew⟩
      obtain ⟨earlier, hearlier, hgoal⟩ := hreached
      exact hnew earlier hearlier (hgoal.trans hplace.symm)
  · rw [h.item_of_not place hreached] at hitem
    have hread₀ : fs.read path = .ok contents :=
      read_eq_ok_iff_item?.mpr ⟨place, mode, hplace, hitem, hmode⟩
    have hnew : ∀ earlier ∈ before, fs.resolve .toFile earlier ≠ fs.resolve .toFile path :=
      fun earlier hearlier hsame => hreached ⟨earlier, hearlier, hsame.trans hplace⟩
    rw [Changes, and_iff_left hnew, HasTab, HasTab, hread, hread₀]

/-! ## The log -/

/-- The line that tells of a file without tabs. -/
def noTabsLine (path : Path) : LogLine :=
  ⟨.debug, s!"No tabs in {Utf8.display path}"⟩

/-- The count and the log of one visit.

**Proof sketch.** By what the expansion of the contents gives. A refusal is excluded by the success.
Without a tab the one line is logged; with one the replacement is run, which logs nothing. -/
lemma log_of_convertFile {modified : Bool} (wf : world.fs.WellFormed)
    (h : (convertFile platform path width).run.run world = (.ok modified, world')) :
    (modified = true ↔ HasTab world.fs path) ∧
      world'.session.log = world.session.log ++ if modified then [] else [noTabsLine path] := by
  obtain ⟨contents, hread⟩ := (converted_of_run wf h).exists_read
  have htab : HasTab world.fs path ↔ tab ∈ unpack contents := by simp [HasTab, hread]
  obtain ⟨fs, session⟩ := world
  rw [run_convertFile platform width hread] at h
  rcases hexpand : expand platform.canReserve contents width with cause | _ | expanded
  · simp [hexpand] at h
  · rw [hexpand] at h
    obtain ⟨hresult, rfl⟩ := Prod.mk.inj h
    obtain rfl : false = modified := Except.ok.inj hresult
    rw [htab]
    exact ⟨iff_of_false (by simp) ((expand_eq_none_iff _ _ _).mp hexpand), rfl⟩
  · have hlog := (Replacement.quiet_replace path (platform.chunks expanded)).log_run ⟨fs, session⟩
    rcases hreplace : (Replacement.replace path (platform.chunks expanded)).run.run
      ⟨fs, session⟩ with ⟨e | _, ended⟩
    · simp [hexpand, hreplace, Except.mapError, Except.map] at h
    · rw [hreplace] at hlog
      simp only [hexpand, hreplace] at h
      obtain ⟨hresult, rfl⟩ := Prod.mk.inj h
      obtain rfl : true = modified := Except.ok.inj hresult
      rw [htab]
      exact ⟨iff_of_true rfl (expand_eq_some hexpand).1, by simpa using hlog⟩

/-- **What the log tells of some visits:** of those that change nothing, in order. The others are
counted.

**Proof sketch.** Induction on the visits. The tree is always the one in which the files at the places
visited before have been expanded. -/
lemma log_of_convertAll (hexpands : Expands width (Reached fs before) fs world.fs)
    (h : (convertAll platform width paths).run.run world = (.ok count, world')) :
    world'.session.log = world.session.log ++ (idle fs before paths).map noTabsLine ∧
      (idle fs before paths).length + count = paths.length := by
  induction paths generalizing before world count with
  | nil =>
    obtain ⟨hcount, rfl⟩ := Prod.mk.inj h
    obtain rfl : 0 = count := Except.ok.inj hcount
    simp [idle]
  | cons path rest ih =>
    obtain ⟨modified, world₁, others, hfile, hrest, rfl⟩ := exists_of_convertAll_cons h
    have wf : (announced world path).fs.WellFormed := hexpands.wellFormed
    have hconverted : Converted width world.fs path modified world₁.fs := converted_of_run wf hfile
    obtain ⟨hmodified, hlog⟩ := log_of_convertFile wf hfile
    obtain ⟨contents, hread⟩ := hconverted.exists_read
    have hchanges : modified = true ↔ Changes fs before path :=
      hmodified.trans (hexpands.hasTab_iff_changes hread)
    obtain ⟨hlogRest, hcountRest⟩ := ih (hexpands.append (hconverted.expands wf)) hrest
    rw [hlogRest, hlog]
    cases modified with
    | true =>
      simp only [idle, if_pos (hchanges.mp rfl), List.length_cons, Bool.toNat_true]
      exact ⟨by simp [announced], by omega⟩
    | false =>
      have hidle : ¬ Changes fs before path := mt hchanges.mpr Bool.false_ne_true
      simp only [idle, if_neg hidle, List.length_cons, Bool.toNat_false]
      exact ⟨by simp [announced], by omega⟩

/-! ## The count -/

/-- **Which places are changed by some visits:** those that some path leads to, where at first there
was a file with a tab.

**Proof sketch.** By whether the place is reached, and then by what it held. A file with a tab is
not its own expansion, since that has none; anything else is. -/
lemma mem_touched_iff (hexpands : Expands width (Reached fs paths) fs fs') (place : Place) :
    fs'.item? place ≠ fs.item? place ↔
      Reached fs paths place ∧ ∃ contents mode,
        fs.item? place = some (.file contents mode) ∧ tab ∈ unpack contents := by
  by_cases hreached : Reached fs paths place
  · rw [and_iff_right hreached, hexpands.item_of_reached place hreached]
    rcases hitem : fs.item? place with _ | (⟨contents, mode⟩ | target | mode)
    · simp
    · by_cases htab : tab ∈ unpack contents
      · refine iff_of_true (fun hsame => ?_) ⟨contents, mode, rfl, htab⟩
        obtain ⟨hcontents, -⟩ := Item.file.inj (Option.some.inj hsame)
        exact tab_notMem_expanded width contents (by rwa [hcontents])
      · simp [expandItem, expanded_of_notMem htab, htab]
    · simp [expandItem]
    · simp [expandItem]
  · refine iff_of_false (not_not_intro (hexpands.item_of_not place hreached)) ?_
    exact fun h => hreached h.1

/-- **What a conversion counts,** and what its log tells. All paths of the target are counted as
matched. Counted as modified are the places to which some of them lead, and at which there was a file
with a tab at first: a place is counted once, however many paths lead there, and two names of a file
are two places. The log tells of the directories that had to be left out, then of each visit that
changes nothing, in order, and at last of the counts.

**Proof sketch.** The count is the number of places that have changed. The tree in the end is the one
in which the files at all places that are reached have been expanded, and it is those with a tab that
this changes. -/
theorem counts_of_convert (wf : world.fs.WellFormed) {config : Config} {target : Path}
    (hpaths : paths = matched world.fs config.pattern target) {summary : Summary}
    (h : (convert platform config target).run.run world = (.ok summary, world')) :
    summary.matched = paths.length ∧
    (∃ touched : Finset Place, (∀ place, place ∈ touched ↔
      (∃ path ∈ paths, world.fs.resolve .toFile path = .ok place) ∧
        ∃ contents mode,
          world.fs.item? place = some (.file contents mode) ∧ tab ∈ unpack contents) ∧
      touched.card = summary.modified) ∧
    summary.modified ≤ summary.matched ∧
    world'.session.log = world.session.log ++ warnings world.fs target ++
      (idle world.fs [] paths).map noTabsLine ++
        [summaryLine target summary.modified summary.matched] ∧
    (idle world.fs [] paths).length = summary.matched - summary.modified := by
  subst hpaths
  obtain ⟨hmatched, hsucceeds, -⟩ := succeedsAll_of_convert h
  rw [run_convert] at h
  set start : World := ⟨world.fs, { world.session with
    log := world.session.log ++ warnings world.fs target }⟩
  rcases hall : (convertAll platform config.width
    (matched world.fs config.pattern target)).run.run start with ⟨e | count, ended⟩
  · simp [hall] at h
  · rw [hall] at h
    obtain ⟨hsummary, rfl⟩ := Prod.mk.inj h
    obtain rfl : ⟨_, count⟩ = summary := Except.ok.inj hsummary
    have wf' : start.fs.WellFormed := wf
    obtain ⟨hlog, hcount⟩ := log_of_convertAll (expands_nil wf') hall
    obtain ⟨hexpands, -⟩ := expands_of_convertAll wf' hall
    obtain ⟨touched, htouched, hcard⟩ := hsucceeds.exists_touched wf
    change (idle world.fs [] (matched world.fs config.pattern target)).length + count = _ at hcount
    dsimp only
    refine ⟨rfl, ⟨touched, fun place => ?_, hcard⟩, by omega, ?_, by omega⟩
    · rw [htouched]
      exact mem_touched_iff hexpands place
    · simp only [Session.addLine, hlog]
      rfl

/-- The pattern that every name matches. -/
def anyName : Pattern where
  text := "*"
  tokens := [.run]
  read := rfl

/-- A file with two names, and a symbolic link to one of them: the names are counted, the link is
not. -/
theorem counts_of_convert_aliased :
    let world : World := ⟨aliased ⟨pack [9], 0o600⟩, .start 7 (fun n => n) none⟩
    ∃ world', (convert .standard ⟨anyName, 4⟩ (utf8 "d")).run.run world = (.ok ⟨3, 2⟩, world') ∧
      (∃ touched : Finset Place, [utf8 "d", utf8 "c"] ∈ touched ∧ touched.card = 2) ∧
      world'.session.log = [noTabsLine (utf8 "d/b.java"), summaryLine (utf8 "d") 2 3] := by
  intro world
  have hok : ((convert .standard ⟨anyName, 4⟩ (utf8 "d")).run.run world).1 = .ok ⟨3, 2⟩ := by
    decide +kernel
  have hpaths : [utf8 "d/a.java", utf8 "d/b.java", utf8 "d/c"] =
      matched world.fs anyName (utf8 "d") := by
    decide +kernel
  have hrun : (convert .standard ⟨anyName, 4⟩ (utf8 "d")).run.run world =
      (.ok ⟨3, 2⟩, ((convert .standard ⟨anyName, 4⟩ (utf8 "d")).run.run world).2) :=
    Prod.ext hok rfl
  obtain ⟨-, ⟨touched, htouched, hcard⟩, -, hlog, -⟩ :=
    counts_of_convert (wellFormed_aliased ⟨pack [9], 0o600⟩) hpaths hrun
  have hname : [utf8 "d", utf8 "c"] ∈ touched := (htouched _).mpr
    ⟨⟨utf8 "d/c", by simp, by decide +kernel⟩, pack [9], 0o600, by decide +kernel,
      by decide +kernel⟩
  have hwarnings : warnings world.fs (utf8 "d") = [] := by decide +kernel
  have hidle : idle world.fs [] [utf8 "d/a.java", utf8 "d/b.java", utf8 "d/c"] =
      [utf8 "d/b.java"] := by
    decide +kernel
  rw [hwarnings, hidle] at hlog
  exact ⟨_, hrun, ⟨touched, hname, hcard⟩, hlog⟩

end Detab.Conversion
