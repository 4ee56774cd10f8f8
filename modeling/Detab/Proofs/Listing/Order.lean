import Detab.Listing
import Mathlib.Tactic.Common

set_option relaxedAutoImplicit false
set_option autoImplicit false

/-!
# The order of a listing

The entries of a listing are met in the order of their paths below the directory, name by name. This
is not the order of the paths as texts: what is in `a` comes before `a.x`, since `a` is less than
`a.x`, but the text `a/b` is greater than `a.x`.

What is visited of a listing are its files and the directories that cannot be read. The *tour* shows
the whole walk: every entry, in the order in which it is met, each by the names on the way to it. A
directory stands right before what is in it.

## Main definitions

* `Detab.Listing.files` — the files of a listing, by the names on the way to them.
* `Detab.Listing.Distinct` — no name is taken twice in one directory.
* `Detab.Listing.Ordered` — at every depth the entries are in the order of their names.
* `Detab.Path.extend` — a path extended by several names.
* `Detab.Stop` — an entry that is met, by the names on the way to it.
* `Detab.Listing.tour`, `Detab.Target.tour` — **the whole walk.**

## Main results

* `Detab.Listing.ordered_sorted` — sorting a listing puts it in order.
* `Detab.Listing.mem_tour_sorted` — sorting loses no entry and makes up none.
* `Detab.Listing.Ordered.pairwise_tour` — **the tour of an ordered listing is strictly increasing,** so
  nothing is met twice.
* `Detab.Listing.visits_eq_filterMap_tour`, `Detab.Target.visits_eq_filterMap_tour` — what is visited is
  read off the tour.
* `Detab.Listing.filterMap_visits` — the paths that are matched are those of the files.
-/

namespace Detab

/-- A path extended by several names. -/
def Path.extend (path : Path) (way : List Name) : Path :=
  way.foldl Path.join path

/-- A path extended by no names is the path. -/
@[simp]
lemma Path.extend_nil (path : Path) : path.extend [] = path := rfl

/-- A path is extended by its first name, and then by the others. -/
@[simp]
lemma Path.extend_cons (path : Path) (name : Name) (way : List Name) :
    path.extend (name :: way) = (path.join name).extend way := rfl

/-- A path is extended by its last name after the others. -/
lemma Path.extend_concat (path : Path) (way : List Name) (name : Name) :
    path.extend (way ++ [name]) = (path.extend way).join name := by
  simp [Path.extend, List.foldl_append]

/-- Whether a pattern selects a file by the last name on the way to it. -/
def Pattern.selects (pattern : Pattern) (way : List Name) : Bool :=
  way.getLast?.any fun name => pattern.matches (Utf8.lossy name)

/-- Ways that go the same way first are compared by what follows. -/
lemma append_lt_append (before : List Name) {way other : List Name} (h : way < other) :
    before ++ way < before ++ other := by
  induction before with
  | nil => exact h
  | cons name before ih => exact List.cons_lt_cons_iff.mpr (.inr ⟨rfl, ih⟩)

/-! ## Stops -/

/-- **An entry that is met,** by the names on the way to it. -/
structure Stop where
  way : List Name
  kind : Kind
  deriving DecidableEq, Repr

/-- What is visited at a stop on the way through the directory at `path`. -/
def Stop.visit? (path : Path) (stop : Stop) : Option Visit :=
  match stop.kind with
  | .file => stop.way.getLast?.map (Visit.file (path.extend stop.way))
  | .closed cause => some (.closed (path.extend stop.way) cause)
  | .directory => none
  | .directoryLink => none

/-- The file that is met at a stop, if it is one. -/
def Stop.file? (stop : Stop) : Option (List Name) :=
  if stop.kind = .file then some stop.way else none

/-- A file that is visited is matched by the last name on the way to it. -/
lemma Stop.bind_visit? (pattern : Pattern) (path : Path) (stop : Stop) :
    (stop.visit? path).bind (Visit.match? pattern) =
      stop.file?.bind fun way => if pattern.selects way then some (path.extend way) else none := by
  obtain ⟨way, kind⟩ := stop
  cases kind with
  | file =>
    cases hlast : way.getLast? <;>
      simp [Stop.visit?, Stop.file?, Visit.match?, Pattern.selects, hlast]
  | directoryLink => rfl
  | directory => rfl
  | closed cause => rfl

namespace Listing

variable {name : Name} {kind : Kind} {below listing : Listing} {way before : List Name} {stop : Stop}

/-! ## Files -/

/-- The files that one entry contributes. -/
def filesOf (name : Name) (kind : Kind) (belowFiles : List (List Name)) : List (List Name) :=
  match kind with
  | .file => [[name]]
  | .directoryLink => []
  | .directory => belowFiles.map (name :: ·)
  | .closed _ => []

/-- **The files of a listing,** each by the names on the way to it. -/
def files : Listing → List (List Name)
  | empty => []
  | entry name kind below rest => filesOf name kind below.files ++ rest.files

/-- The names of the entries. -/
def names : Listing → List Name
  | empty => []
  | entry name _ _ rest => name :: rest.names

/-- **No name is taken twice** in one directory, at any depth. -/
def Distinct : Listing → Prop
  | empty => True
  | entry name _ below rest => name ∉ rest.names ∧ below.Distinct ∧ rest.Distinct

/-- **In order:** at every depth each name is less than all that follow it. -/
def Ordered : Listing → Prop
  | empty => True
  | entry name _ below rest => (∀ n ∈ rest.names, name < n) ∧ below.Ordered ∧ rest.Ordered

/-- What an entry contributes begins with its name. -/
lemma exists_cons_of_mem_filesOf {belowFiles : List (List Name)}
    (h : way ∈ filesOf name kind belowFiles) : ∃ rest, way = name :: rest := by
  cases kind with
  | file => exact ⟨[], List.mem_singleton.mp h⟩
  | directoryLink => simp [filesOf] at h
  | directory =>
    obtain ⟨rest, -, rfl⟩ := List.mem_map.mp h
    exact ⟨rest, rfl⟩
  | closed cause => simp [filesOf] at h

/-! ## The tour -/

/-- **The tour of a listing** of a directory that `before` leads to. -/
def tour (before : List Name) : Listing → List Stop
  | empty => []
  | entry name kind below rest =>
    ⟨before ++ [name], kind⟩ ::
      ((if kind = .directory then below.tour (before ++ [name]) else []) ++ rest.tour before)

/-- What is met in a listing is met under one of its names. -/
lemma exists_of_mem_tour (h : stop ∈ listing.tour before) :
    ∃ name ∈ listing.names, ∃ others, stop.way = before ++ name :: others := by
  induction listing generalizing before with
  | empty => simp [tour] at h
  | entry name kind below rest ihbelow ih =>
    rw [tour, List.mem_cons, List.mem_append] at h
    rcases h with rfl | h | h
    · exact ⟨name, by simp [Listing.names], [], rfl⟩
    · split_ifs at h
      · obtain ⟨n, -, others, hway⟩ := ihbelow h
        exact ⟨name, by simp [Listing.names], n :: others, by simpa using hway⟩
      · simp at h
    · obtain ⟨n, hn, others, hway⟩ := ih h
      exact ⟨n, by simp [Listing.names, hn], others, hway⟩

/-! ## Sorting -/

/-- Inserting an entry adds its name and no other one. -/
lemma mem_names_insert (n : Name) (listing : Listing) :
    n ∈ (insert name kind below listing).names ↔ n = name ∨ n ∈ listing.names := by
  induction listing with
  | empty => simp [insert, Listing.names]
  | entry name' kind' below' rest _ ih =>
    unfold insert
    split
    · simp [Listing.names]
    · simp only [Listing.names, List.mem_cons, ih]
      exact or_left_comm

/-- Sorting a listing adds no names and loses none. -/
lemma mem_names_sorted (n : Name) (listing : Listing) :
    n ∈ listing.sorted.names ↔ n ∈ listing.names := by
  induction listing with
  | empty => rfl
  | entry name kind below rest _ ih =>
    simp only [sorted, mem_names_insert, Listing.names, List.mem_cons, ih]

/-- An entry under a new name is put in its place.

**Proof sketch.** Induction on the listing. The new entry comes before the first one with a greater
name, or behind it, where names are less. -/
lemma Ordered.insert (h : listing.Ordered) (hbelow : below.Ordered) (hnew : name ∉ listing.names) :
    (Listing.insert name kind below listing).Ordered := by
  induction listing with
  | empty => exact ⟨by simp [Listing.names], hbelow, trivial⟩
  | entry name' kind' below' rest _ ih =>
    obtain ⟨hfirst, hbelow', hrest⟩ := h
    simp only [Listing.names, List.mem_cons, not_or] at hnew
    unfold Listing.insert
    split
    · rename_i hlt
      refine ⟨fun n hn => ?_, hbelow, hfirst, hbelow', hrest⟩
      rcases List.mem_cons.mp hn with rfl | hn
      · exact hlt
      · exact List.lt_trans hlt (hfirst n hn)
    · rename_i hge
      refine ⟨fun n hn => ?_, hbelow', ih hrest hnew.2⟩
      rcases (mem_names_insert n rest).mp hn with rfl | hn
      · exact Std.lt_of_le_of_ne (List.not_lt.mp hge) (Ne.symm hnew.1)
      · exact hfirst n hn

/-- **Sorting a listing puts it in order.** -/
lemma ordered_sorted (h : listing.Distinct) : listing.sorted.Ordered := by
  induction listing with
  | empty => trivial
  | entry name kind below rest ihbelow ih =>
    obtain ⟨hnew, hbelow, hrest⟩ := h
    exact (ih hrest).insert (ihbelow hbelow) (mt (mem_names_sorted name rest).mp hnew)

/-- The tour of a listing is made of the tour of its first entry and that of the rest. -/
lemma mem_tour_entry {rest : Listing} : stop ∈ (entry name kind below rest).tour before ↔
    stop ∈ (entry name kind below empty).tour before ∨ stop ∈ rest.tour before := by
  simp [tour, or_assoc]

/-- Where an entry is inserted does not count for which stops are made, only for their order. -/
lemma mem_tour_insert (listing : Listing) :
    stop ∈ (insert name kind below listing).tour before ↔
      stop ∈ (entry name kind below empty).tour before ∨ stop ∈ listing.tour before := by
  induction listing with
  | empty => simp [insert, tour]
  | entry name' kind' below' rest _ ih =>
    unfold insert
    split
    · exact mem_tour_entry
    · rw [mem_tour_entry, ih, or_left_comm, ← mem_tour_entry]

/-- Sorting loses no stop and makes up none. -/
lemma mem_tour_sorted (listing : Listing) :
    stop ∈ listing.sorted.tour before ↔ stop ∈ listing.tour before := by
  induction listing generalizing before with
  | empty => rfl
  | entry name kind below rest ihbelow ih =>
    have hhere : stop ∈ (entry name kind below.sorted empty).tour before ↔
        stop ∈ (entry name kind below empty).tour before := by
      by_cases hkind : kind = .directory <;> simp [tour, hkind, ihbelow]
    rw [sorted, mem_tour_insert, ih, hhere, ← mem_tour_entry]

/-! ## The order of the tour -/

/-- **The tour of an ordered listing is strictly increasing,** name by name.

**Proof sketch.** What is met under an entry begins with its name, and what follows begins with a
greater one. Below an entry the first name is the same, so the order is that of the others. -/
lemma Ordered.pairwise_tour (h : listing.Ordered) (before : List Name) :
    (listing.tour before).Pairwise (·.way < ·.way) := by
  induction listing generalizing before with
  | empty => exact .nil
  | entry name kind below rest ihbelow ih =>
    obtain ⟨hfirst, hbelow, hrest⟩ := h
    -- all that is met under a later name comes later
    have hlater : ∀ stop ∈ rest.tour before, ∀ others, before ++ name :: others < stop.way := by
      intro stop hstop others
      obtain ⟨n, hn, others', hway⟩ := exists_of_mem_tour hstop
      rw [hway]
      exact append_lt_append before (List.cons_lt_cons_iff.mpr (.inl (hfirst n hn)))
    have hunder : ∀ stop ∈ if kind = .directory then below.tour (before ++ [name]) else [],
        ∃ n others, stop.way = before ++ name :: n :: others := by
      intro stop hstop
      split_ifs at hstop
      · obtain ⟨n, -, others, hway⟩ := exists_of_mem_tour hstop
        exact ⟨n, others, by simpa using hway⟩
      · simp at hstop
    rw [tour, List.pairwise_cons, List.pairwise_append]
    refine ⟨fun stop hstop => ?_, ?_, ih hrest before, fun stop hstop stop' hstop' => ?_⟩
    · rcases List.mem_append.mp hstop with hstop | hstop
      · obtain ⟨n, others, hway⟩ := hunder stop hstop
        rw [hway]
        exact append_lt_append before
          (List.cons_lt_cons_iff.mpr (.inr ⟨rfl, List.nil_lt_cons n others⟩))
      · exact hlater stop hstop []
    · split_ifs
      · exact ihbelow hbelow _
      · exact .nil
    · obtain ⟨n, others, hway⟩ := hunder stop hstop
      rw [hway]
      exact hlater stop' hstop' _

/-! ## What is visited -/

/-- **What is visited is read off the tour.** -/
lemma visits_eq_filterMap_tour (path : Path) (before : List Name) (listing : Listing) :
    listing.visits (path.extend before) = (listing.tour before).filterMap (Stop.visit? path) := by
  induction listing generalizing before with
  | empty => rfl
  | entry name kind below rest ihbelow ih =>
    simp only [visits, tour, ih, ← Path.extend_concat, ihbelow]
    cases kind <;> simp [Stop.visit?, List.filterMap_cons]

/-- The files of a listing are read off its tour. -/
lemma filterMap_file?_tour (before : List Name) (listing : Listing) :
    (listing.tour before).filterMap Stop.file? = listing.files.map (before ++ ·) := by
  induction listing generalizing before with
  | empty => rfl
  | entry name kind below rest ihbelow ih =>
    rw [tour, files, List.filterMap_cons, List.filterMap_append, ih, List.map_append]
    cases kind <;> simp [Stop.file?, filesOf, ihbelow]

/-- The files of a listing are the files that its tour stops at, in the same order. -/
lemma files_eq_filterMap_tour (listing : Listing) :
    listing.files = (listing.tour []).filterMap Stop.file? := by
  simp [filterMap_file?_tour]

/-- A file is listed exactly when the tour stops at it. -/
lemma mem_files_iff (listing : Listing) :
    way ∈ listing.files ↔ ⟨way, .file⟩ ∈ listing.tour [] := by
  rw [files_eq_filterMap_tour, List.mem_filterMap]
  constructor
  · rintro ⟨⟨way', kind⟩, hstop, hfile⟩
    unfold Stop.file? at hfile
    split_ifs at hfile with hkind
    obtain rfl : way' = way := Option.some.inj hfile
    obtain rfl : kind = .file := hkind
    exact hstop
  · exact fun hstop => ⟨_, hstop, rfl⟩

/-- A file is found under the name of an entry. -/
lemma exists_cons_of_mem_files (h : way ∈ listing.files) :
    ∃ name ∈ listing.names, ∃ rest, way = name :: rest :=
  exists_of_mem_tour ((mem_files_iff listing).mp h)

/-- **Sorting loses no file and makes up none.** -/
lemma mem_files_sorted (listing : Listing) : way ∈ listing.sorted.files ↔ way ∈ listing.files := by
  rw [mem_files_iff, mem_files_iff, mem_tour_sorted]

/-- **The files of an ordered listing are strictly increasing,** name by name. -/
lemma Ordered.pairwise_files (h : listing.Ordered) : listing.files.Pairwise (· < ·) := by
  rw [files_eq_filterMap_tour]
  refine (h.pairwise_tour []).filterMap _ fun stop stop' hlt way hway way' hway' => ?_
  unfold Stop.file? at hway hway'
  split_ifs at hway hway'
  rwa [← Option.some.inj hway, ← Option.some.inj hway']

/-- **The paths that are matched are those of the files** that the pattern selects. -/
lemma filterMap_visits (pattern : Pattern) (path : Path) (listing : Listing) :
    (listing.visits path).filterMap (Visit.match? pattern) =
      (listing.files.filter pattern.selects).map path.extend := by
  have hvisits : listing.visits path = (listing.tour []).filterMap (Stop.visit? path) :=
    visits_eq_filterMap_tour path [] listing
  rw [hvisits, List.filterMap_filterMap]
  simp only [Stop.bind_visit?]
  rw [← List.filterMap_filterMap, ← files_eq_filterMap_tour, ← List.filterMap_eq_filter,
    List.map_filterMap]
  congr 1
  funext way
  cases hselects : pattern.selects way <;> simp [Option.guard, hselects]

end Listing

/-- **The tour of a target** that is a directory begins at the directory itself. -/
def Target.tour : Target → List Stop
  | .single => []
  | .directory (.ok listing) => ⟨[], .directory⟩ :: listing.sorted.tour []
  | .directory (.error cause) => [⟨[], .closed cause⟩]

/-- **What is visited is read off the tour.** -/
lemma Target.visits_eq_filterMap_tour (path : Path) (target : Target) :
    target.visits path = target.tour.filterMap (Stop.visit? path) := by
  cases target with
  | single => rfl
  | directory content =>
    cases content with
    | error cause => rfl
    | ok listing => exact Listing.visits_eq_filterMap_tour path [] listing.sorted

end Detab
