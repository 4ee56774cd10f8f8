import Detab.Proofs.Listing.Order
import Mathlib.Data.List.Infix

set_option relaxedAutoImplicit false
set_option autoImplicit false

/-!
# Listings with shut directories

When a directory is *shut*, it cannot be read any more. The walk still stops at it, but at nothing below
it; all other stops are made as before.

## Main definitions

* `Detab.Below` — a way leads on from another one.
* `Detab.Listing.shut`, `Detab.Target.shut` — what is listed when some directories cannot be read.
* `Detab.Stop.IsLeft`, `Detab.Stop.shut` — which stops are left, and what they show then.

## Main results

* `Detab.Listing.sorted_shut` — listings are sorted before or after that.
* `Detab.Target.tour_shut` — **a directory that is shut hides what is below it,** and nothing else.
* `Detab.exists_tour_of_shut` — the tour around one directory that is shut.
-/

namespace Detab

/-! ## Ways -/

/-- **Strictly below a way:** it leads on from there. -/
def Below (way other : List Name) : Prop :=
  way <+: other ∧ way ≠ other

/-- Whether one way is strictly below another one can be computed. -/
instance (way other : List Name) : Decidable (Below way other) :=
  inferInstanceAs (Decidable (_ ∧ _))

variable {way other before : List Name} {ways : List (List Name)}

/-- What is below a way comes after it. -/
lemma Below.lt (h : Below way other) : way < other := by
  obtain ⟨⟨rest, rfl⟩, hne⟩ := h
  cases rest with
  | nil => exact absurd (List.append_nil way).symm hne
  | cons name rest => simpa using append_lt_append way (List.nil_lt_cons name rest)

/-- What is below a way is below the next name or is that. -/
lemma below_concat_iff {name : Name} : Below way (before ++ [name]) ↔ way <+: before := by
  constructor
  · rintro ⟨hleads, hne⟩
    exact (List.prefix_concat_iff.mp hleads).resolve_left hne
  · intro hleads
    refine ⟨hleads.trans (List.prefix_append _ _), ?_⟩
    rintro rfl
    have hlength := hleads.length_le
    rw [List.length_append, List.length_singleton] at hlength
    omega

/-! ## Stops -/

/-- What an entry is when the directories at some ways cannot be read. -/
def Kind.shut (ways : List (List Name)) (way : List Name) (kind : Kind) : Kind :=
  if kind = .directory ∧ way ∈ ways then .closed .permissionDenied else kind

/-- A stop when the directories at some ways cannot be read. -/
def Stop.shut (ways : List (List Name)) (stop : Stop) : Stop :=
  ⟨stop.way, stop.kind.shut ways stop.way⟩

/-- Whether a stop is still made when the directories at some ways cannot be read. -/
def Stop.IsLeft (ways : List (List Name)) (stop : Stop) : Prop :=
  ∀ way ∈ ways, ¬ Below way stop.way

/-- Whether a stop is left can be computed. -/
instance (ways : List (List Name)) (stop : Stop) : Decidable (stop.IsLeft ways) :=
  inferInstanceAs (Decidable (∀ way ∈ ways, ¬ Below way stop.way))

/-- Stops at other ways stay as they are. -/
lemma map_shut_eq_self {stops : List Stop} (h : ∀ stop ∈ stops, stop.way ∉ ways) :
    stops.map (Stop.shut ways) = stops := by
  have hsame : ∀ stop ∈ stops, stop.shut ways = stop := by
    intro stop hstop
    simp [Stop.shut, Kind.shut, h stop hstop]
  exact (List.map_congr_left hsame).trans (List.map_id' stops)

/-! ## Listings -/

namespace Listing

variable {name : Name} {kind : Kind} {below : Listing}

/-- **What is listed when the directories at some ways cannot be read.** -/
def shut (ways : List (List Name)) (before : List Name) : Listing → Listing
  | empty => empty
  | entry name kind below rest =>
    entry name (kind.shut ways (before ++ [name]))
      (if kind = .directory ∧ before ++ [name] ∈ ways then empty
        else below.shut ways (before ++ [name]))
      (rest.shut ways before)

/-- An entry can be inserted before or after the directories are shut; shutting looks at ways and
not at the order. -/
lemma insert_shut (ways : List (List Name)) (before : List Name) (listing : Listing) :
    (insert name kind below listing).shut ways before =
      insert name (kind.shut ways (before ++ [name]))
        (if kind = .directory ∧ before ++ [name] ∈ ways then empty
          else below.shut ways (before ++ [name]))
        (listing.shut ways before) := by
  induction listing with
  | empty => rfl
  | entry name' kind' below' rest _ ih =>
    by_cases hlt : name < name'
    · simp only [insert, shut, if_pos hlt]
    · simp only [insert, shut, if_neg hlt, ih]

/-- It does not matter whether a listing is sorted before or after some directories are shut. -/
lemma sorted_shut (ways : List (List Name)) (before : List Name) (listing : Listing) :
    (listing.shut ways before).sorted = listing.sorted.shut ways before := by
  induction listing generalizing before with
  | empty => rfl
  | entry name kind below rest ihbelow ih =>
    rw [shut, sorted, sorted, insert_shut, ih]
    split
    · rfl
    · rw [ihbelow]

/-- **A directory that is shut hides what is below it,** and nothing else.

**Proof sketch.** Induction on the listing. The stop at an entry itself is always left, since no way
leads to the directory before it that is shut. If the entry is a directory that is shut, all that is
below it is hidden, and otherwise none of the ways leads to it either. -/
lemma tour_shut (hbefore : ∀ way ∈ ways, ¬ way <+: before) (listing : Listing) :
    (listing.shut ways before).tour before =
      ((listing.tour before).filter fun stop => stop.IsLeft ways).map (Stop.shut ways) := by
  induction listing generalizing before with
  | empty => rfl
  | entry name kind below rest ihbelow ih =>
    have hleft : (Stop.mk (before ++ [name]) kind).IsLeft ways :=
      fun way hway hbelow => hbefore way hway (below_concat_iff.mp hbelow)
    rw [shut, tour, tour, ih hbefore, List.filter_cons_of_pos (by simpa using hleft),
      List.filter_append, List.map_cons, List.map_append]
    by_cases hkind : kind = .directory
    · by_cases hshut : before ++ [name] ∈ ways
      · have hnone : (below.tour (before ++ [name])).filter (fun stop => stop.IsLeft ways) = [] := by
          refine List.filter_eq_nil_iff.mpr fun stop hstop hleft => ?_
          obtain ⟨n, -, others, hway⟩ := exists_of_mem_tour hstop
          refine of_decide_eq_true hleft _ hshut ⟨?_, ?_⟩
          · rw [hway]
            exact List.prefix_append _ _
          · rw [hway]
            simp
        rw [if_pos hkind, hnone]
        simp [Stop.shut, Kind.shut, hkind, hshut]
      · have hunder : ∀ way ∈ ways, ¬ way <+: before ++ [name] := by
          intro way hway hleads
          rcases List.prefix_concat_iff.mp hleads with rfl | hleads
          · exact hshut hway
          · exact hbefore way hway hleads
        rw [if_pos hkind, ← ihbelow hunder]
        simp [Stop.shut, Kind.shut, hkind, hshut]
    · simp [Stop.shut, Kind.shut, hkind]

end Listing

/-! ## Targets -/

namespace Target

/-- What a target turns out to be when the directories at some ways cannot be read. -/
def shut (ways : List (List Name)) : Target → Target
  | .single => .single
  | .directory (.ok listing) =>
    if [] ∈ ways then .directory (.error .permissionDenied)
    else .directory (.ok (listing.shut ways []))
  | .directory (.error cause) => .directory (.error cause)

/-- **Directories that are shut hide what is below them,** and nothing else.

**Proof sketch.** By what the target is. A stop is never below itself, so the first one is left. If the
target is shut, all others are below it; if not, its listing is shut by `Listing.tour_shut`. -/
lemma tour_shut (ways : List (List Name)) (target : Target) :
    (target.shut ways).tour =
      (target.tour.filter fun stop => stop.IsLeft ways).map (Stop.shut ways) := by
  rcases target with _ | (cause | listing)
  · rfl
  · have hleft : (Stop.mk [] (.closed cause)).IsLeft ways :=
      fun way _ hbelow => hbelow.2 (List.prefix_nil.mp hbelow.1)
    rw [shut, tour, List.filter_cons_of_pos (by simpa using hleft)]
    simp [Stop.shut, Kind.shut]
  · have hleft : (Stop.mk [] .directory).IsLeft ways :=
      fun way _ hbelow => hbelow.2 (List.prefix_nil.mp hbelow.1)
    rw [tour, List.filter_cons_of_pos (by simpa using hleft), shut]
    split
    · rename_i hshut
      have hnone : (listing.sorted.tour []).filter (fun stop => stop.IsLeft ways) = [] := by
        refine List.filter_eq_nil_iff.mpr fun stop hstop hleft => ?_
        obtain ⟨n, -, others, hway⟩ := Listing.exists_of_mem_tour hstop
        refine of_decide_eq_true hleft _ hshut ⟨List.nil_prefix, ?_⟩
        rw [hway]
        simp
      rw [hnone]
      simp [tour, Stop.shut, Kind.shut, hshut]
    · rename_i hshut
      have hopen : ∀ way ∈ ways, ¬ way <+: [] := by
        intro way hway hleads
        rw [List.prefix_nil.mp hleads] at hway
        exact hshut hway
      rw [tour, Listing.sorted_shut, Listing.tour_shut hopen]
      simp [Stop.shut, Kind.shut, hshut]

end Target

/-- **The tour around one directory that is shut:** the stop at it shows that it cannot be read, and
only the stops below it are missing.

**Proof sketch.** The tour is cut at the stop. Ways increase strictly along it, so what comes before
is not below the shut directory, and what comes behind is below it or not; the shut tour is then
computed by `Target.tour_shut`. -/
lemma exists_tour_of_shut {target : Target} (hordered : target.tour.Pairwise (·.way < ·.way))
    (hstop : ⟨way, .directory⟩ ∈ target.tour) :
    ∃ front back, target.tour = front ++ ⟨way, .directory⟩ :: back ∧
      (∀ stop ∈ front, stop.way < way) ∧ (∀ stop ∈ back, way < stop.way) ∧
      (target.shut [way]).tour = front ++ ⟨way, .closed .permissionDenied⟩ ::
        back.filter fun stop => ¬ Below way stop.way := by
  obtain ⟨front, back, htour⟩ := List.append_of_mem hstop
  rw [htour, List.pairwise_append, List.pairwise_cons] at hordered
  obtain ⟨-, ⟨hback, -⟩, hfront⟩ := hordered
  have hbefore : ∀ stop ∈ front, stop.way < way :=
    fun stop hstop => hfront stop hstop _ List.mem_cons_self
  refine ⟨front, back, htour, hbefore, hback, ?_⟩
  have hleft : ∀ stop : Stop, stop.IsLeft [way] ↔ ¬ Below way stop.way := by
    intro stop
    simp [Stop.IsLeft]
  -- ways increase along the tour, so nothing that comes before is below the shut directory
  have hfrontLeft : front.filter (fun stop => stop.IsLeft [way]) = front := by
    refine List.filter_eq_self.mpr fun stop hstop => decide_eq_true ((hleft stop).mpr fun hbelow => ?_)
    exact List.lt_irrefl _ (List.lt_trans hbelow.lt (hbefore stop hstop))
  have hself : (Stop.mk way .directory).IsLeft [way] := (hleft _).mpr fun hbelow => hbelow.2 rfl
  have hfrontSame : front.map (Stop.shut [way]) = front := by
    refine map_shut_eq_self fun stop hstop hmem => ?_
    have hlt := hbefore stop hstop
    rw [List.mem_singleton.mp hmem] at hlt
    exact List.lt_irrefl way hlt
  have hbackSame : (back.filter fun stop => stop.IsLeft [way]).map (Stop.shut [way]) =
      back.filter fun stop => stop.IsLeft [way] := by
    refine map_shut_eq_self fun stop hstop hmem => ?_
    have hlt := hback stop (List.mem_of_mem_filter hstop)
    rw [List.mem_singleton.mp hmem] at hlt
    exact List.lt_irrefl way hlt
  rw [Target.tour_shut, htour, List.filter_append, List.filter_cons_of_pos (by simpa using hself),
    List.map_append, List.map_cons, hfrontLeft, hfrontSame, hbackSame]
  simp only [hleft]
  simp [Stop.shut, Kind.shut]

end Detab
