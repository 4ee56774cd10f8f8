import Detab.Proofs.Conversion.AllFiles
import Detab.Proofs.FileSystem.Descending
import Mathlib.Data.List.Nodup

set_option relaxedAutoImplicit false
set_option autoImplicit false

/-!
# What a directory stands for

A target that is a directory stands for the files below it whose names match a pattern. This file
says which paths these are by the tree alone: by what is found at each place below the directory,
and by what can be opened on the way.

## Main definitions

* `Detab.FileSystem.Holds` — a file is found below a directory, by the names on the way to it.
* `Detab.FileSystem.walked` — a tree with links of every kind and a directory that is closed.

## Main results

* `Detab.FileSystem.mem_files_listing_iff` — **a listing holds the files below its directory,** all
  of them and no others.
* `Detab.Conversion.exists_ways_of_directory` — **the paths that a directory stands for.**

## Design

What is found below a directory is given by the names on the way to it. Their order is that of
the names, one after the other. Two ways make two paths, so no path is met twice.
-/

namespace Detab

/-! ## The entries of a listing -/

namespace Listing

variable {fs : FileSystem} {count : Nat}

/-- A way that begins with a name is looked for under the entry of that name only. -/
lemma cons_mem_files_entry_iff {name n : Name} {kind : Kind} {below rest : Listing}
    {others : List Name} (hnew : n ∉ rest.names) :
    name :: others ∈ (entry n kind below rest).files ↔
      if n = name then name :: others ∈ filesOf n kind below.files
      else name :: others ∈ rest.files := by
  rw [files, List.mem_append]
  split
  · rename_i heq
    subst heq
    refine or_iff_left fun h => ?_
    obtain ⟨n', hn', others', heq⟩ := exists_cons_of_mem_files h
    exact hnew ((List.cons.inj heq).1 ▸ hn')
  · rename_i hne
    refine or_iff_right fun h => ?_
    obtain ⟨others', heq⟩ := exists_cons_of_mem_filesOf h
    exact hne (List.cons.inj heq).1.symm

/-- A directory is listed under the names that it has. -/
lemma names_listing (fs : FileSystem) (path : Path) (d : Directory) :
    (fs.listing path d).names = d.names := by
  induction d with
  | empty => rfl
  | leaf name l rest ih =>
    cases l <;> simp only [FileSystem.listing, Listing.names, Directory.names, ih]
  | sub name mode entries rest _ ih =>
    unfold FileSystem.listing
    split <;> simp only [Listing.names, Directory.names, ih]

/-- In a tree that can exist no name is listed twice. -/
lemma distinct_listing (fs : FileSystem) (path : Path) {d : Directory} (h : d.WellFormed count) :
    (fs.listing path d).Distinct := by
  induction d generalizing path with
  | empty => trivial
  | leaf name l rest ih =>
    obtain ⟨-, hnew, -, hrest⟩ := h
    rw [← names_listing fs path rest] at hnew
    cases l with
    | file id => exact ⟨hnew, trivial, ih path hrest⟩
    | link target => exact ⟨hnew, trivial, ih path hrest⟩
  | sub name mode entries rest ihentries ih =>
    obtain ⟨-, hnew, hentries, hrest⟩ := h
    rw [← names_listing fs path rest] at hnew
    unfold FileSystem.listing
    split
    · exact ⟨hnew, ihentries _ hentries, ih path hrest⟩
    · exact ⟨hnew, trivial, ih path hrest⟩

end Listing

namespace FileSystem

open Detab.Path

variable {fs : FileSystem} {path target : Path} {name : Name} {goal : Place} {mode : Mode}
  {entries : Directory} {way others : List Name} {count : Nat}

/-- What an entry at a path adds to the files of a listing, by the names below it. -/
def Contributes (fs : FileSystem) (path : Path) (below : List Name) : Entry → Prop
  | .leaf (.file _) => below = []
  | .leaf (.link _) => below = [] ∧ fs.isDirectory path = false
  | .directory _ entries =>
    (∃ found, fs.openDirectory path = .ok found) ∧ below ∈ (fs.listing path entries).files

/-- **The files of a listing, entry by entry.**

**Proof sketch.** Induction on the entries of the directory. Names are distinct, so the first entry
is the one that is looked for, or the others decide. -/
lemma cons_mem_files_listing_iff {d : Directory} (h : d.WellFormed count) :
    name :: others ∈ (fs.listing path d).files ↔
      ∃ entry, d.find? name = some entry ∧ fs.Contributes (path.join name) others entry := by
  induction d with
  | empty => simp [listing, Listing.files, Directory.find?]
  | leaf n l rest ih =>
    obtain ⟨-, hnew, -, hrest⟩ := h
    rw [← Listing.names_listing fs path rest] at hnew
    rw [Directory.find?]
    cases l with
    | file id =>
      rw [listing, Listing.cons_mem_files_entry_iff hnew]
      split
      · simp_all [Listing.filesOf, Contributes]
      · exact ih hrest
    | link link =>
      rw [listing, Listing.cons_mem_files_entry_iff hnew]
      split
      · rename_i heq
        subst heq
        cases hlink : fs.isDirectory (path.join n) <;>
          simp [Listing.filesOf, Contributes, hlink]
      · exact ih hrest
  | sub n m entries rest _ ih =>
    obtain ⟨-, hnew, -, hrest⟩ := h
    rw [← Listing.names_listing fs path rest] at hnew
    rw [Directory.find?, listing]
    split <;> rw [Listing.cons_mem_files_entry_iff hnew]
    · split
      · simp_all [Listing.filesOf, Contributes]
      · exact ih hrest
    · split
      · simp_all [Listing.filesOf, Contributes]
      · exact ih hrest

/-! ## What is found below a directory -/

/-- **A file is found below a directory,** by the names on the way to it: the path leads to the place
of the directory, every place on the way is a directory that can be opened, and at the end is a file
or a link that does not lead to a directory. -/
structure Holds (fs : FileSystem) (path : Path) (place : Place) (way : List Name) : Prop where
  /-- No place on the way is a link, and what is read there are its entries. -/
  opens : ∀ before, before <+: way → before ≠ way → ∃ mode entries,
    fs.entry? (place ++ before) = some (.directory mode entries) ∧
      fs.openDirectory (path.extend before) = .ok entries
  /-- A link that leads nowhere, or that cannot be followed, does not lead to a directory. -/
  leaf : ∃ leaf, fs.entry? (place ++ way) = some (.leaf leaf) ∧
    ∀ link, leaf = .link link → fs.isDirectory (path.extend way) = false

namespace Holds

/-- A file that is found right at a path: there is a leaf, and it is not a link that leads to a
directory. -/
lemma nil_iff {place : Place} :
    fs.Holds path place [] ↔ ∃ leaf, fs.entry? place = some (.leaf leaf) ∧
      ∀ link, leaf = .link link → fs.isDirectory path = false := by
  constructor
  · intro h
    simpa using h.leaf
  · intro h
    exact ⟨fun before hbefore hne => absurd (List.prefix_nil.mp hbefore) hne, by simpa using h⟩

/-- What is found below a directory is found below, or is, the entry of its first name.

**Proof sketch.** What has to be opened on the way is the directory itself, and what has to be
opened from its entry on. -/
lemma cons_iff {place : Place} :
    fs.Holds path place (name :: others) ↔
      (∃ mode entries, fs.entry? place = some (.directory mode entries) ∧
        fs.openDirectory path = .ok entries) ∧
      fs.Holds (path.join name) (place ++ [name]) others := by
  constructor
  · intro h
    refine ⟨by simpa using h.opens [] List.nil_prefix (by simp), fun before hbefore hne => ?_, ?_⟩
    · simpa using h.opens (name :: before) ((List.cons_prefix_cons).mpr ⟨rfl, hbefore⟩)
        (by simpa using hne)
    · simpa using h.leaf
  · rintro ⟨hfirst, h⟩
    refine ⟨fun before hbefore hne => ?_, by simpa using h.leaf⟩
    cases before with
    | nil => simpa using hfirst
    | cons n before =>
      obtain ⟨rfl, hrest⟩ := List.cons_prefix_cons.mp hbefore
      simpa using h.opens before hrest (by simpa using hne)

end Holds

/-- **A listing holds the files below its directory,** all of them and no others.

**Proof sketch.** Induction on the way. The entry of the first name adds to the listing what is
below it; when it is a directory, its path leads to it, so what is opened there are its entries. -/
lemma mem_files_listing_iff (wf : fs.WellFormed) (htarget : fs.resolve .toFile target = .ok goal)
    (before : List Name) (hdirectory : fs.entry? (goal ++ before) = some (.directory mode entries))
    (hopen : fs.openDirectory (target.extend before) = .ok entries) :
    way ∈ (fs.listing (target.extend before) entries).files ↔
      fs.Holds (target.extend before) (goal ++ before) way := by
  induction way generalizing before mode entries with
  | nil =>
    refine iff_of_false (fun h => ?_) fun h => ?_
    · obtain ⟨name, -, others, h⟩ := Listing.exists_cons_of_mem_files h
      simp at h
    · obtain ⟨leaf, hleaf, -⟩ := Holds.nil_iff.mp h
      simp [hdirectory] at hleaf
  | cons name others ih =>
    have hentry : fs.entry? (goal ++ before ++ [name]) = entries.find? name :=
      entry?_concat hdirectory name
    rw [cons_mem_files_listing_iff (wf.entries hdirectory), Holds.cons_iff, ← hentry,
      and_iff_right ⟨mode, entries, hdirectory, hopen⟩]
    constructor
    · rintro ⟨entry, hfound, hcontributes⟩
      rcases entry with (id | link) | ⟨m, e⟩
      · obtain rfl : others = [] := hcontributes
        exact Holds.nil_iff.mpr ⟨_, hfound, by simp⟩
      · obtain ⟨rfl, hlink⟩ := hcontributes
        exact Holds.nil_iff.mpr ⟨_, hfound, fun _ _ => hlink⟩
      · obtain ⟨⟨found, hfoundOpen⟩, hbelow⟩ := hcontributes
        rw [← Path.extend_concat] at hfoundOpen hbelow ⊢
        rw [List.append_assoc] at hfound ⊢
        obtain rfl := openDirectory_extend wf htarget hfound hfoundOpen
        exact (ih _ hfound hfoundOpen).mp hbelow
    · intro h
      cases others with
      | nil =>
        obtain ⟨leaf, hleaf, hlink⟩ := Holds.nil_iff.mp h
        refine ⟨_, hleaf, ?_⟩
        cases leaf with
        | file id => rfl
        | link link => exact ⟨rfl, hlink link rfl⟩
      | cons next others =>
        obtain ⟨⟨m, e, hsub, hsubOpen⟩, -⟩ := Holds.cons_iff.mp h
        refine ⟨_, hsub, ⟨e, hsubOpen⟩, ?_⟩
        rw [← Path.extend_concat] at hsubOpen h ⊢
        rw [List.append_assoc] at hsub h
        exact (ih _ hsub hsubOpen).mpr h

/-- A directory `t` with the file `x.java` in the directory `a` and the file `a.java` beside it, a
link `here.java` to the directory itself, a link `loop.java` to itself, a directory `r` that can be
listed but not passed through, with a link in it, and a directory `shut` that is closed. -/
def walked : FileSystem where
  rootMode := .newDirectory
  root :=
    .sub (utf8 "t") .newDirectory
      (.sub (utf8 "shut") 0o000 (.leaf (utf8 "y.java") (.file 0) .empty)
        (.leaf (utf8 "a.java") (.file 0)
          (.leaf (utf8 "here.java") (.link (utf8 "."))
            (.sub (utf8 "a") .newDirectory (.leaf (utf8 "x.java") (.file 0) .empty)
              (.sub (utf8 "r") 0o400 (.leaf (utf8 "l.java") (.link (utf8 "..")) .empty)
                (.leaf (utf8 "loop.java") (.link (utf8 "loop.java")) .empty)))))) .empty
  files := [⟨.empty, .newFile⟩]
  workingDirectory := []

/-- The example tree is well formed, by going through its entries. -/
lemma wellFormed_walked : walked.WellFormed := by
  have hroot : walked.root.WellFormed 1 := by decide +kernel
  exact ⟨hroot, .newDirectory, rfl⟩

/-- **The files of the listing of a target,** in the order in which they are met: those below its
directory, by strictly increasing ways.

**Proof sketch.** The ways are those of the sorted listing that the pattern selects. Sorting changes
neither names nor files, and a file of the listing is one that is found below the directory. When
the directory cannot be opened, nothing is listed, and nothing is found below. -/
lemma exists_files_survey (wf : fs.WellFormed) (htarget : fs.resolve .toFile target = .ok goal)
    (hdirectory : fs.entry? goal = some (.directory mode entries)) (pattern : Pattern) :
    ∃ ways : List (List Name),
      (fs.survey target).matchSet pattern target = ways.map target.extend ∧
      (∀ way, way ∈ ways ↔ fs.Holds target goal way ∧ pattern.selects way = true) ∧
      ways.Pairwise (· < ·) := by
  rw [survey, if_pos (isDirectory_of_resolve htarget hdirectory)]
  cases hopen : fs.openDirectory target with
  | error cause =>
    -- a target that cannot be opened has no files, and nothing is found below it
    refine ⟨[], rfl, fun way => iff_of_false (List.not_mem_nil) ?_, .nil⟩
    rintro ⟨hholds, -⟩
    cases way with
    | nil =>
      obtain ⟨leaf, hleaf, -⟩ := Holds.nil_iff.mp hholds
      simp [hdirectory] at hleaf
    | cons name others =>
      obtain ⟨⟨m, e, -, hok⟩, -⟩ := Holds.cons_iff.mp hholds
      simp [hopen] at hok
  | ok found =>
    have hplace : fs.entry? (goal ++ []) = some (.directory mode entries) := by
      rwa [List.append_nil]
    obtain rfl := openDirectory_target htarget hdirectory hopen
    have hdistinct : (fs.listing target found).Distinct :=
      Listing.distinct_listing fs target (wf.entries hdirectory)
    refine ⟨(fs.listing target found).sorted.files.filter pattern.selects,
      Listing.filterMap_visits _ _ _, fun way => ?_,
      (Listing.ordered_sorted hdistinct).pairwise_files.filter _⟩
    have hholds : way ∈ (fs.listing target found).files ↔ fs.Holds target (goal ++ []) way :=
      mem_files_listing_iff wf htarget [] hplace hopen
    rw [List.append_nil] at hholds
    rw [List.mem_filter, Listing.mem_files_sorted, hholds]

end FileSystem

namespace Conversion

open FileSystem

variable {world : World} {target : Path} {goal : Place} {mode : Mode} {entries : Directory}

/-- **The paths that a directory stands for.** They lead by names from the target to the files below
it, through directories that can be opened and through no link, and the last name is one that the
pattern selects. None of them occurs twice, and they are in the order of their names, not of their
texts.

**Proof sketch.** The match set is that of the survey, by `exists_files_survey`. The ways increase
strictly, so they are distinct; their paths are as well, because names on the way are steps, from
which the way can be read back. -/
theorem exists_ways_of_directory (wf : world.fs.WellFormed)
    (htarget : world.fs.resolve .toFile target = .ok goal)
    (hdirectory : world.fs.entry? goal = some (.directory mode entries)) (pattern : Pattern) :
    ∃ ways : List (List Name),
      ((matchSet pattern target).run world).1 = ways.map target.extend ∧
      (∀ way, way ∈ ways ↔ world.fs.Holds target goal way ∧ pattern.selects way = true) ∧
      ways.Pairwise (· < ·) ∧ (ways.map target.extend).Nodup := by
  obtain ⟨ways, hmatched, hways, hordered⟩ :=
    exists_files_survey wf htarget hdirectory pattern
  obtain ⟨log, hrun⟩ := exists_run_matchSet pattern target world
  refine ⟨ways, by rw [hrun]; exact hmatched, hways, hordered, ?_⟩
  have hne : target ≠ [] := by
    rintro rfl
    simp [resolve, spellingError?] at htarget
  have hstep : ∀ way ∈ ways, way ≠ [] ∧ ∀ n ∈ way, Path.IsStep n := by
    intro way hway
    obtain ⟨leaf, hleaf, -⟩ := ((hways way).mp hway).1.leaf
    refine ⟨?_, fun n hn => (wf.isName hleaf n (List.mem_append_right goal hn)).isStep⟩
    rintro rfl
    simp [hdirectory] at hleaf
  have hdifferent : ways.Nodup := by
    refine hordered.imp ?_
    rintro way _ hlt rfl
    exact List.lt_irrefl way hlt
  exact List.Nodup.map_on (fun way hway way' hway' heq =>
    Path.extend_injective hne (hstep way hway).1 (hstep way' hway').1 (hstep way hway).2
      (hstep way' hway').2 heq) hdifferent

/-- Files in and beside a directory of the same name but for an ending, links to a directory, to
themselves and in a directory that cannot be passed through, and a file in a closed directory. -/
theorem exists_ways_of_directory_walked :
    let world : World := ⟨walked, .start 7 (fun n => n) none⟩
    let found := ((matchSet Config.standard.pattern (utf8 "t")).run world).1
    found = [utf8 "t/a/x.java", utf8 "t/a.java", utf8 "t/loop.java", utf8 "t/r/l.java"] ∧
      found.Nodup ∧
      ∀ path ∈ found, ∃ way, walked.Holds (utf8 "t") [utf8 "t"] way ∧
        path = Path.extend (utf8 "t") way := by
  intro world found
  have hfound : found = [utf8 "t/a/x.java", utf8 "t/a.java", utf8 "t/loop.java",
      utf8 "t/r/l.java"] := by
    decide +kernel
  have htarget : world.fs.resolve .toFile (utf8 "t") = .ok [utf8 "t"] := by decide +kernel
  have wf : world.fs.WellFormed := wellFormed_walked
  obtain ⟨ways, hways, hholds, -, hnodup⟩ :=
    exists_ways_of_directory wf htarget rfl Config.standard.pattern
  rw [← hways] at hnodup
  refine ⟨hfound, hnodup, fun path hpath => ?_⟩
  rw [show found = ways.map (Path.extend (utf8 "t")) from hways] at hpath
  obtain ⟨way, hway, rfl⟩ := List.mem_map.mp hpath
  exact ⟨way, ((hholds way).mp hway).1, rfl⟩

/-- By names `a/x.java` comes before `a.java`, by text after it. -/
example :
    ([utf8 "a", utf8 "x.java"] : List Name) < [utf8 "a.java"] ∧ utf8 "a.java" < utf8 "a/x.java" := by
  decide +kernel

end Conversion

end Detab
