import Detab.Proofs.FileSystem.Shutting
import Detab.Proofs.Listing.Selection
import Detab.Proofs.Listing.Shutting
import Detab.Proofs.Running.Silence

set_option relaxedAutoImplicit false
set_option autoImplicit false

/-!
# Directories that cannot be read

A directory that its owner may not read is left out with a warning, and the walk goes on. This file
compares the walk through a tree with the walk through the same tree in which some more directories may
not be read. What is chosen and what is warned of is read off the tour of each, and of the one tour
only the stops below these directories are missing in the other.

## Main definitions

* `Detab.FileSystem.tour` — the tour of a target in a tree.
* `Detab.FileSystem.Reads` — **a directory is read on the walk,** by the names on the way to it.
* `Detab.Stop.match?`, `Detab.Stop.warning?` — what a stop adds to the files and to the log.

## Main results

* `Detab.FileSystem.survey_shut` — a survey of a tree in which some directories are shut.
* `Detab.FileSystem.mem_tour_of_reads` — the tour stops at each directory that is read.
* `Detab.Conversion.run_matchSet_eq_tour` — the choice of files is read off the tour.
* `Detab.Conversion.matchSet_of_shut` — **an unreadable directory hides exactly what is in it.**

## Design

A directory that may not be read can still be passed through. So links that lead through it lead where
they led, and the entries beside it are what they were.
-/

namespace Detab

namespace FileSystem

open Detab.Path

variable {fs : FileSystem} {target path : Path} {goal place : Place} {mode : Mode}
  {entries d : Directory} {before way : List Name} {ways : List (List Name)} {name : Name}
  {count : Nat}

/-- The tour of a target. -/
def tour (fs : FileSystem) (target : Path) : List Stop :=
  (fs.survey target).tour

/-! ## Surveys of trees with shut directories -/

/-- A name that is found behind an entry is not the name of this entry. -/
lemma ne_of_find? {rest : Directory} {e : Entry} {n : Name} (hnew : name ∉ rest.names)
    (h : rest.find? n = some e) : name ≠ n := by
  rintro rfl
  exact hnew (Directory.mem_names_iff.mpr (by rw [h]; exact Option.some_ne_none e))

/-- **The listing of a directory** in a tree in which some directories below the target are shut.

**Proof sketch.** Induction on the entries. The path of a subdirectory leads to its place, if it leads
anywhere; so it can still be opened if this place is not one of those that are shut. -/
lemma listing_shut (wf : fs.WellFormed) (htarget : fs.resolve .toFile target = .ok goal)
    (ways : List (List Name)) (before : List Name) (hd : d.WellFormed count)
    (hfind : ∀ n e, d.find? n = some e → fs.entry? (goal ++ before ++ [n]) = some e) :
    (fs.shut (ways.map (goal ++ ·))).listing (target.extend before)
        (d.shut (ways.map (goal ++ ·)) (goal ++ before)) =
      (fs.listing (target.extend before) d).shut ways before := by
  induction d generalizing before with
  | empty => rfl
  | leaf name l rest ih =>
    obtain ⟨-, hnew, -, hrest⟩ := hd
    have hlater := ih before hrest fun n e h => hfind n e (by
      rw [Directory.find?, if_neg (ne_of_find? hnew h), h])
    cases l with
    | file id => simp [Directory.shut, listing, Listing.shut, Kind.shut, hlater]
    | link link =>
      simp only [Directory.shut, listing, Listing.shut, isDirectory_shut, hlater]
      cases fs.isDirectory ((target.extend before).join name) <;> simp [Kind.shut]
  | sub name mode entries rest ihentries ih =>
    obtain ⟨-, hnew, hentries, hrest⟩ := hd
    have hlater := ih before hrest fun n e h => hfind n e (by
      rw [Directory.find?, if_neg (ne_of_find? hnew h), h])
    have hentry : fs.entry? (goal ++ (before ++ [name])) = some (.directory mode entries) := by
      rw [← List.append_assoc]
      exact hfind name _ (if_pos rfl)
    have hbelow := ihentries (before ++ [name]) hentries fun n e h => by
      rw [entry?_concat hentry, h]
    rw [Directory.shut, listing, listing, hlater, ← Path.extend_concat]
    cases hopen : fs.openDirectory (target.extend (before ++ [name])) with
    | error cause =>
      rw [openDirectory_shut_of_error hopen]
      simp [Listing.shut, Kind.shut]
    | ok found =>
      obtain ⟨place, m, hplace, -⟩ := openDirectory_eq_ok_iff.mp hopen
      obtain rfl := resolve_extend wf htarget
        (solid_of_directory (shape?_eq_directory_iff.mpr ⟨entries, hentry⟩)) hplace
      rw [openDirectory_shut_of_ok hplace hopen, List.append_assoc, hbelow]
      by_cases hshut : before ++ [name] ∈ ways
      · have hmem : goal ++ (before ++ [name]) ∈ ways.map (goal ++ ·) :=
          List.mem_map_of_mem hshut
        simp [hmem, Listing.shut, Kind.shut, hshut]
      · have hmem : goal ++ (before ++ [name]) ∉ ways.map (goal ++ ·) := by
          simpa using hshut
        simp [hmem, Listing.shut, Kind.shut, hshut]

/-- **The survey of a target** in a tree in which some directories below it, or itself, are shut.

**Proof sketch.** Walks do not see that directories are shut, so the target is a directory in both
trees. If it can be opened, its listing is shut by `listing_shut`; if it is itself among the shut
ones, it cannot be opened any more. -/
lemma survey_shut (wf : fs.WellFormed) (htarget : fs.resolve .toFile target = .ok goal)
    (hdirectory : fs.entry? goal = some (.directory mode entries)) (ways : List (List Name)) :
    (fs.shut (ways.map (goal ++ ·))).survey target = (fs.survey target).shut ways := by
  have hisDirectory := isDirectory_of_resolve htarget hdirectory
  rw [survey, survey, isDirectory_shut, if_pos hisDirectory, if_pos hisDirectory]
  cases hopen : fs.openDirectory target with
  | error cause =>
    rw [openDirectory_shut_of_error hopen]
    rfl
  | ok found =>
    obtain rfl := openDirectory_target htarget hdirectory hopen
    have hlisting := listing_shut wf htarget ways [] (wf.entries hdirectory) fun n e h => by
      rw [List.append_nil, entry?_concat hdirectory, h]
    rw [List.append_nil, Path.extend_nil] at hlisting
    rw [openDirectory_shut_of_ok htarget hopen]
    -- what is listed is the same either way; the target itself may be shut as well
    by_cases hshut : [] ∈ ways
    · have hmem : goal ∈ ways.map (goal ++ ·) := List.mem_map.mpr ⟨[], hshut, List.append_nil goal⟩
      rw [if_pos hmem]
      exact (if_pos hshut).symm
    · have hmem : goal ∉ ways.map (goal ++ ·) := by simpa using hshut
      rw [if_neg hmem]
      change Target.directory (.ok _) = _
      rw [hlisting]
      exact (if_neg hshut).symm

/-! ## The tour of a target -/

/-- A tour has one stop at each entry, in the order of the names on the way to it. -/
lemma pairwise_tour (wf : fs.WellFormed) (htarget : fs.resolve .toFile target = .ok goal)
    (hdirectory : fs.entry? goal = some (.directory mode entries)) :
    (fs.tour target).Pairwise (·.way < ·.way) := by
  rw [tour, survey, if_pos (isDirectory_of_resolve htarget hdirectory)]
  cases hopen : fs.openDirectory target with
  | error cause => exact List.pairwise_singleton _ _
  | ok found =>
    obtain rfl := openDirectory_target htarget hdirectory hopen
    have hdistinct := Listing.distinct_listing fs target (wf.entries hdirectory)
    refine List.pairwise_cons.mpr ⟨fun stop hstop => ?_,
      (Listing.ordered_sorted hdistinct).pairwise_tour []⟩
    obtain ⟨n, -, others, hway⟩ := Listing.exists_of_mem_tour hstop
    rw [hway]
    exact List.nil_lt_cons n others

/-- **A directory is read on the walk,** by the names on the way to it: no place on the way is a link,
and all directories there can be opened, and it as well. -/
def Reads (fs : FileSystem) (target : Path) (goal : Place) (way : List Name) : Prop :=
  ∀ before, before <+: way → ∃ mode entries,
    fs.entry? (goal ++ before) = some (.directory mode entries) ∧
      fs.openDirectory (target.extend before) = .ok entries

/-- A target is read, as far as the walk to its own directory goes, when it leads to a directory
that can be opened. -/
lemma reads_nil_iff : fs.Reads target goal [] ↔ ∃ mode entries,
    fs.entry? goal = some (.directory mode entries) ∧ fs.openDirectory target = .ok entries := by
  simp [Reads]

/-- A directory is read when the one that it is in is read and it can be opened. -/
lemma reads_concat_iff : fs.Reads target goal (way ++ [name]) ↔
    fs.Reads target goal way ∧ ∃ mode entries,
      fs.entry? (goal ++ (way ++ [name])) = some (.directory mode entries) ∧
        fs.openDirectory (target.extend (way ++ [name])) = .ok entries := by
  constructor
  · intro h
    exact ⟨fun before hbefore => h before (hbefore.trans (List.prefix_append _ _)),
      h _ List.prefix_rfl⟩
  · rintro ⟨hway, hname⟩ before hbefore
    rcases List.prefix_concat_iff.mp hbefore with rfl | hbefore
    · exact hname
    · exact hway before hbefore

/-- The tour of a listing stops at a subdirectory that can be opened, and goes through it.

**Proof sketch.** Induction on the entries of the directory: the entries before the one that is
looked for are passed by. -/
lemma tour_listing_of_find? (hfind : d.find? name = some (.directory mode entries))
    {found : Directory} (hopen : fs.openDirectory (path.join name) = .ok found) :
    ⟨before ++ [name], .directory⟩ ∈ (fs.listing path d).tour before ∧
      ∀ stop ∈ (fs.listing (path.join name) entries).tour (before ++ [name]),
        stop ∈ (fs.listing path d).tour before := by
  induction d with
  | empty => simp [Directory.find?] at hfind
  | leaf n l rest ih =>
    by_cases hn : n = name
    · simp [Directory.find?, hn] at hfind
    · rw [Directory.find?, if_neg hn] at hfind
      obtain ⟨hself, hunder⟩ := ih hfind
      cases l <;> exact ⟨by simp [listing, Listing.tour, hself],
        fun stop hstop => by simp [listing, Listing.tour, hunder stop hstop]⟩
  | sub n m e rest _ ih =>
    by_cases hn : n = name
    · subst hn
      simp only [Directory.find?, if_true, Option.some.injEq, Entry.directory.injEq] at hfind
      obtain ⟨rfl, rfl⟩ := hfind
      rw [listing, hopen]
      exact ⟨by simp [Listing.tour], fun stop hstop => by simp [Listing.tour, hstop]⟩
    · rw [Directory.find?, if_neg hn] at hfind
      obtain ⟨hself, hunder⟩ := ih hfind
      rw [listing]
      split <;> exact ⟨by simp [Listing.tour, hself],
        fun stop hstop => by simp [Listing.tour, hunder stop hstop]⟩

/-- A listing has a stop at each directory that is read.

**Proof sketch.** Induction on the names on the way: each directory on it can be opened, so the tour
goes through it to the next one. -/
lemma mem_tour_listing_of_reads {others : List Name}
    (hdirectory : fs.entry? (goal ++ before) = some (.directory mode entries))
    (hreads : fs.Reads target goal (before ++ name :: others)) :
    ⟨before ++ name :: others, .directory⟩ ∈
      (fs.listing (target.extend before) entries).tour before := by
  induction others generalizing name before mode entries with
  | nil =>
    obtain ⟨m, e, hentry, hopen⟩ := hreads _ List.prefix_rfl
    rw [← List.append_assoc, entry?_concat hdirectory] at hentry
    rw [Path.extend_concat] at hopen
    exact (tour_listing_of_find? hentry hopen).1
  | cons next others ih =>
    obtain ⟨m, e, hentry, hopen⟩ := hreads (before ++ [name]) ⟨next :: others, by simp⟩
    have hfind : entries.find? name = some (.directory m e) := by
      rw [← entry?_concat hdirectory, List.append_assoc, hentry]
    have hlater : ⟨before ++ [name] ++ next :: others, .directory⟩ ∈
        (fs.listing (target.extend (before ++ [name])) e).tour (before ++ [name]) :=
      ih hentry (by simpa using hreads)
    rw [Path.extend_concat] at hopen hlater
    simpa using (tour_listing_of_find? hfind hopen).2 _ hlater

/-- **The tour stops at each directory that is read.** -/
lemma mem_tour_of_reads (htarget : fs.resolve .toFile target = .ok goal)
    (hreads : fs.Reads target goal way) : ⟨way, .directory⟩ ∈ fs.tour target := by
  obtain ⟨mode, entries, hdirectory, hopen⟩ := hreads [] List.nil_prefix
  rw [List.append_nil] at hdirectory
  rw [Path.extend_nil] at hopen
  rw [tour, survey, if_pos (isDirectory_of_resolve htarget hdirectory), hopen]
  cases way with
  | nil => exact List.mem_cons_self
  | cons name others =>
    refine List.mem_cons_of_mem _ ((Listing.mem_tour_sorted _).mpr ?_)
    have hplace : fs.entry? (goal ++ []) = some (.directory mode entries) := by
      rwa [List.append_nil]
    exact mem_tour_listing_of_reads hplace hreads

end FileSystem

/-! ## What a stop adds -/

/-- The path that a stop adds to those that are converted. -/
def Stop.match? (pattern : Pattern) (target : Path) (stop : Stop) : Option Path :=
  (stop.visit? target).bind (Visit.match? pattern)

/-- The line that a stop adds to the log. -/
def Stop.warning? (target : Path) (stop : Stop) : Option LogLine :=
  ((stop.visit? target).bind Visit.skipped?).map fun (path, cause) =>
    ⟨.warn, Conversion.skipLine path cause⟩

namespace Conversion

open FileSystem

variable {world : World} {fs : FileSystem} {target : Path} {goal : Place} {mode : Mode}
  {entries : Directory}

/-- **The choice of files is read off the tour.** -/
lemma run_matchSet_eq_tour (pattern : Pattern) (hdirectory : world.fs.isDirectory target = true) :
    (matchSet pattern target).run world =
      ((world.fs.tour target).filterMap (Stop.match? pattern target),
        world.withLog (world.session.log ++
          (world.fs.tour target).filterMap (Stop.warning? target))) := by
  have hmatched : matched world.fs pattern target =
      (world.fs.tour target).filterMap (Stop.match? pattern target) := by
    rw [matched, tour, survey, if_pos hdirectory]
    exact (congrArg _ (Target.visits_eq_filterMap_tour target _)).trans List.filterMap_filterMap
  have hwarnings : warnings world.fs target =
      (world.fs.tour target).filterMap (Stop.warning? target) := by
    rw [warnings, Target.skipped, Target.visits_eq_filterMap_tour, List.filterMap_filterMap,
      List.map_filterMap]
    rfl
  rw [run_matchSet, hmatched, hwarnings]
  rfl

/-- **A directory that cannot be read hides exactly what is in it.** Let a target be a directory, and
compare a tree with the same tree in which the owner may not read some of the directories that the walk
has read: the target itself, or directories below it.

* What is chosen and what is warned of are read off the tour.
* When one directory is shut, the stops before it are made as before. The stop at it adds a warning, in
  its place. Of the stops after it those below it are missing, and no others.
* When any number of directories are shut, the stops that are left are those below none of them, in the
  same order, and at each directory that is shut and left there is a warning.

**Proof sketch.** What is surveyed in the tree with shut directories is the survey of the tree,
shut. The tour of a shut survey leaves out the stops below, keeps the others in their order, and has
a warning at each shut directory; the match set and the warnings are read off it. -/
theorem matchSet_of_shut (wf : world.fs.WellFormed)
    (htarget : world.fs.resolve .toFile target = .ok goal)
    (hdirectory : world.fs.entry? goal = some (.directory mode entries)) (pattern : Pattern) :
    let tour := world.fs.tour target
    (matchSet pattern target).run world =
      (tour.filterMap (Stop.match? pattern target),
        world.withLog (world.session.log ++ tour.filterMap (Stop.warning? target))) ∧
    (∀ way, world.fs.Reads target goal way →
      ∃ front back, tour = front ++ ⟨way, .directory⟩ :: back ∧
        (∀ stop ∈ front, stop.way < way) ∧ (∀ stop ∈ back, way < stop.way) ∧
        let shut : World := ⟨world.fs.shut [goal ++ way], world.session⟩
        let left := back.filter fun stop => ¬ Below way stop.way
        (matchSet pattern target).run shut =
          ((front ++ left).filterMap (Stop.match? pattern target),
            shut.withLog (world.session.log ++ (front.filterMap (Stop.warning? target) ++
              ⟨.warn, skipLine (target.extend way) .permissionDenied⟩ ::
                left.filterMap (Stop.warning? target))))) ∧
    ∀ ways : List (List Name), (∀ way ∈ ways, world.fs.Reads target goal way) →
      let shut : World := ⟨world.fs.shut (ways.map (goal ++ ·)), world.session⟩
      let left := (tour.filter fun stop => ∀ way ∈ ways, ¬ Below way stop.way).map (Stop.shut ways)
      (∀ way ∈ ways, ⟨way, .directory⟩ ∈ tour) ∧
      (matchSet pattern target).run shut =
        (left.filterMap (Stop.match? pattern target),
          shut.withLog (world.session.log ++ left.filterMap (Stop.warning? target))) := by
  have hisDirectory := isDirectory_of_resolve htarget hdirectory
  have hshut : ∀ places, (matchSet pattern target).run ⟨world.fs.shut places, world.session⟩ = _ :=
    fun places => run_matchSet_eq_tour pattern ((isDirectory_shut _ _ _).trans hisDirectory)
  have hsurvey := survey_shut wf htarget hdirectory
  refine ⟨run_matchSet_eq_tour pattern hisDirectory, fun way hreads => ?_, fun ways hreads => ?_⟩
  · obtain ⟨front, back, htour, hfront, hback, hclosed⟩ := exists_tour_of_shut
      (pairwise_tour wf htarget hdirectory) (mem_tour_of_reads htarget hreads)
    refine ⟨front, back, htour, hfront, hback, (hshut _).trans ?_⟩
    have hleft : (world.fs.shut [goal ++ way]).tour target = _ :=
      (congrArg Target.tour (hsurvey [way])).trans hclosed
    rw [hleft, List.filterMap_append, List.filterMap_append, List.filterMap_append,
      List.filterMap_cons, List.filterMap_cons]
    rfl
  · refine ⟨fun way hway => mem_tour_of_reads htarget (hreads way hway), (hshut _).trans ?_⟩
    have hleft : (world.fs.shut (ways.map (goal ++ ·))).tour target = _ :=
      (congrArg Target.tour (hsurvey ways)).trans (Target.tour_shut ways _)
    rw [hleft]
    rfl

/-- A directory that is shut between others, beside one that has been shut before; and two at once. -/
theorem matchSet_of_shut_walked :
    let world : World := ⟨walked, .start 7 (fun n => n) none⟩
    let way : List Name := [utf8 "a"]
    let ways : List (List Name) := [[utf8 "a"], [utf8 "r"]]
    world.fs.WellFormed ∧ world.fs.resolve .toFile (utf8 "t") = .ok [utf8 "t"] ∧
      (∃ mode entries, world.fs.entry? [utf8 "t"] = some (.directory mode entries)) ∧
      (∀ way ∈ ways, world.fs.Reads (utf8 "t") [utf8 "t"] way) ∧
      (∃ front back, world.fs.tour (utf8 "t") = front ++ ⟨way, .directory⟩ :: back ∧
        ((matchSet Config.standard.pattern (utf8 "t")).run
          ⟨world.fs.shut [utf8 "t" :: way], world.session⟩).1 =
            (front ++ back.filter fun stop => ¬ Below way stop.way).filterMap
              (Stop.match? Config.standard.pattern (utf8 "t"))) ∧
      (∀ way ∈ ways, ⟨way, .directory⟩ ∈ world.fs.tour (utf8 "t")) ∧
      ((matchSet Config.standard.pattern (utf8 "t")).run
        ⟨world.fs.shut (ways.map ([utf8 "t"] ++ ·)), world.session⟩).1 =
          [utf8 "t/a.java", utf8 "t/loop.java"] := by
  intro world way ways
  have htarget : world.fs.resolve .toFile (utf8 "t") = .ok [utf8 "t"] := by decide +kernel
  have hreads : ∀ way ∈ ways, world.fs.Reads (utf8 "t") [utf8 "t"] way := by
    have hself : world.fs.Reads (utf8 "t") [utf8 "t"] [] :=
      reads_nil_iff.mpr ⟨_, _, rfl, by decide +kernel⟩
    intro way hway
    rcases List.mem_pair.mp hway with rfl | rfl
    · exact reads_concat_iff.mpr ⟨hself, _, _, rfl, by decide +kernel⟩
    · exact reads_concat_iff.mpr ⟨hself, _, _, rfl, by decide +kernel⟩
  have wf : world.fs.WellFormed := wellFormed_walked
  obtain ⟨-, hone, hall⟩ := matchSet_of_shut wf htarget rfl Config.standard.pattern
  obtain ⟨front, back, htour, -, -, hrun⟩ := hone way (hreads way (by simp [ways, way]))
  obtain ⟨hstops, -⟩ := hall ways hreads
  refine ⟨wf, htarget, ⟨_, _, rfl⟩, hreads, ⟨front, back, htour, ?_⟩, hstops, ?_⟩
  · exact congrArg Prod.fst hrun
  · decide +kernel

end Conversion

end Detab
