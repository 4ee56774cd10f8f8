import Detab.Proofs.FileSystem.Reaching
import Detab.Proofs.FileSystem.Sights

set_option relaxedAutoImplicit false
set_option autoImplicit false

/-!
# Canonical paths

A canonical path is found by names. Each name on the way is looked up under a path of its own, which
starts from the root; a link puts the steps of its target in front; dots are taken off the text. So two
things can be in the way of it that are not in the way of opening the file: a directory above the
working directory that cannot be passed through, and a place on the way whose path from the root is too
long.

## Main definitions

* `Detab.FileSystem.way` — **the places at which the names of a path are looked up,** one after the
  other.

## Main results

* `Detab.FileSystem.readLink_pathOf`, `Detab.FileSystem.of_resolve_toEntry_pathOf` — looking up a name
  from the root.
* `Detab.FileSystem.canonicalFrom_induction` — induction along a walk that finds a canonical path.
* `Detab.FileSystem.WellFormed.resolve_of_canonicalPlace` — **a canonical path leads where the names
  lead.**
* `Detab.FileSystem.WellFormed.canonicalPlace_of_resolve` — **where a canonical path is found:** the
  working directory can be reached from the root, and no path on the way is too long.
* `Detab.FileSystem.WellFormed.mem_way` — the way of a path that leads to a file goes there.
* `Detab.FileSystem.Keeps.canonicalPath` — a canonical path stays what it is while a tree is kept.
* `Detab.FileSystem.canonicalPath_congr` — what it is, or why there is none, is the same in two trees in
  which a walk sees the same.

## Design

A relative path and an absolute one are treated alike: from the root everything that a walk starts with
can be reached. So it is the place where a walk starts that has to be `Reachable`.
-/

namespace Detab

open Detab.Path

/-- The target of a link, or none for what is no link. -/
def Shape.target? : Shape → Option Path
  | link target => some target
  | _ => none

namespace FileSystem

variable {fs fs' : FileSystem} {path : Path} {here goal place : Place} {links left : Nat} {n : Name}
  {shape : Shape} {target : Path} {rest : List Step}

/-! ## Looking up a name from the root -/

/-- **What reading a link finds** is a matter of shapes: the target, if the path leads to a link, and
none if it leads to anything else.

**Proof sketch.** By what the look-up of the path finds, and then by the kinds of entries. -/
lemma readLink_eq_ok_iff {target? : Option Path} :
    fs.readLink path = .ok target? ↔
      ∃ place shape, fs.resolve .toEntry path = .ok place ∧ fs.shape? place = some shape ∧
        shape.target? = target? := by
  unfold readLink
  cases hlook : fs.lookUp .toEntry path with
  | error e =>
    simp only [reduceCtorEq, false_iff, not_exists, not_and]
    intro place shape hplace hshape
    cases hentry : fs.entry? place with
    | none =>
      rw [shape?_eq_none_iff.mpr hentry] at hshape
      simp at hshape
    | some entry =>
      rw [lookUp_eq_ok_iff.mpr ⟨place, hplace, hentry⟩] at hlook
      simp at hlook
  | ok entry =>
    obtain ⟨place, hplace, hentry⟩ := lookUp_eq_ok_iff.mp hlook
    rcases entry with (id | target) | ⟨mode, entries⟩ <;>
      simp [hplace, shape?, node?, hentry, Entry.node, Node.shape, Shape.target?]

/-- What a path leads to is found in a tree that is kept, whether it is a link or not. -/
lemma Keeps.readLink (h : fs.Keeps fs') {target? : Option Path}
    (hlink : fs.readLink path = .ok target?) : fs'.readLink path = .ok target? := by
  obtain ⟨place, shape, hplace, hshape, htarget⟩ := readLink_eq_ok_iff.mp hlink
  exact readLink_eq_ok_iff.mpr ⟨place, shape, h.resolve hplace, h.shape place shape hshape, htarget⟩

/-- **A name that can be looked up from the root** is looked up in the directory in which it stands,
and this directory can be passed through.

**Proof sketch.** The path from the root goes along the names of the directory, so it leads to that
directory; the last step is taken there. -/
lemma of_resolve_toEntry_pathOf (hnames : ∀ n' ∈ here ++ [n], IsName n') (hsolid : fs.Solid here)
    (h : fs.resolve .toEntry (pathOf (here ++ [n])) = .ok place) :
    place = here ++ [n] ∧ fs.Passable true here ∧ n.length ≤ maxName := by
  obtain ⟨-, hwalk⟩ := resolve_eq_ok_iff_walkFrom.mp h
  rw [startOf, isAbsolute_pathOf, if_pos rfl, steps_pathOf hnames (by simp), List.map_append,
    List.map_singleton] at hwalk
  obtain ⟨left, mid, hwalked, hlast⟩ :=
    exists_walked_of_walkFrom _ _ _ (List.cons_ne_nil _ _) hwalk
  obtain rfl : mid = here := hwalked.goal_of_names hsolid
  cases firstStep_of_walkFrom hlast with
  | name hpass hn _ hnext =>
    rw [walkFrom_nil] at hnext
    exact ⟨(Except.ok.inj hnext).symm, hpass, hn⟩
  | link _ _ _ hgo => simp [Walk.toEntry] at hgo
  | stop hpass hn _ _ hend => exact ⟨hend, hpass, hn⟩

/-- **Looking up a name from the root:** where the directory of the name can be reached and passed
through, and the path is not too long, what has the name is found. -/
lemma readLink_pathOf (wf : fs.WellFormed) (hreachable : fs.Reachable here)
    (hpass : fs.Passable true here) (hshape : fs.shape? (here ++ [n]) = some shape)
    (hfits : Fits (pathOf (here ++ [n]))) :
    fs.readLink (pathOf (here ++ [n])) = .ok shape.target? := by
  obtain ⟨mode, hmode, -⟩ := id hpass
  obtain ⟨entries, hhere⟩ := shape?_eq_directory_iff.mp hmode
  have hn : entries.find? n ≠ none := by
    intro hnone
    rw [shape?_eq_none_iff.mpr (by rw [entry?_concat hhere, hnone])] at hshape
    simp at hshape
  have hlast := lastStep_pathOf wf (hreachable.concat hpass n) hhere hn hfits
  exact readLink_eq_ok_iff.mpr ⟨_, shape, resolve_toEntry_of_lastStep hlast hn, hshape, rfl⟩

/-- Where a walk through all links may end, there is something under names. -/
lemma WellFormed.isName_of_solid (wf : fs.WellFormed) (h : fs.Solid place) :
    ∀ n ∈ place, IsName n := by
  obtain ⟨shape, hshape, -⟩ := h
  cases hentry : fs.entry? place with
  | none =>
    rw [shape?_eq_none_iff.mpr hentry] at hshape
    simp at hshape
  | some e => exact wf.isName hentry

/-- **A name that was looked up from the root** stands in a directory that can be passed through, and
what was found there is what has the name. No zero byte is in it, since with one it would not have been
looked up.

**Proof sketch.** The canonical path of the place has been looked up, so no zero byte is in it, and
all its parts are names. A walk along names leads to the place, through the directory above it. -/
lemma WellFormed.of_readLink_pathOf (wf : fs.WellFormed) (hhere : fs.Solid here) (hn : IsStep n)
    {target? : Option Path} (h : fs.readLink (pathOf (here ++ [n])) = .ok target?) :
    fs.Passable true here ∧ n.length ≤ maxName ∧
      ∃ shape, fs.shape? (here ++ [n]) = some shape ∧ shape.target? = target? := by
  obtain ⟨place, shape, hplace, hshape, htarget⟩ := readLink_eq_ok_iff.mp h
  obtain ⟨hspelling, -⟩ := resolve_eq_ok_iff_walkFrom.mp hplace
  have hzero : 0 ∉ n := fun hmem =>
    zero_notMem_of_spellingError? hspelling (mem_ofPieces (by simp) hmem)
  have hnames : ∀ n' ∈ here ++ [n], IsName n' := by
    intro n' hn'
    rcases List.mem_append.mp hn' with hn' | hn'
    · exact wf.isName_of_solid hhere n' hn'
    · rw [List.mem_singleton.mp hn']
      exact ⟨hn.1, hn.2.1, hn.2.2.1, hn.2.2.2, hzero⟩
  obtain ⟨rfl, hpass, hlong⟩ := of_resolve_toEntry_pathOf hnames hhere hplace
  exact ⟨hpass, hlong, shape, hshape, htarget⟩

/-! ## The walk that finds a canonical path, one step at a time -/

/-- What happens behind a link that is met on the way to a canonical path: the walk goes on, and one
link fewer may be followed. -/
def canonicalJump (fs : FileSystem) : Nat → Place → List Step → Except IoError Place
  | 0 => fun _ _ => .error .linkLoop
  | links + 1 => fs.canonicalFrom links

/-- A walk without steps ends where it starts. -/
lemma canonicalFrom_nil (links : Nat) (here : Place) : fs.canonicalFrom links here [] = .ok here := by
  cases links <;> rfl

/-- The step to a name, by what is found when the name is looked up from the root. -/
lemma canonicalFrom_cons_name (links : Nat) (here : Place) (n : Name) (rest : List Step) :
    fs.canonicalFrom links here (.name n :: rest) =
      match fs.readLink (pathOf (here ++ [n])) with
      | .error e => .error e
      | .ok none => fs.canonicalFrom links (here ++ [n]) rest
      | .ok (some target) =>
        fs.canonicalJump links (startOf target here) (steps target ++ rest) := by
  cases links <;> rfl

/-- A step that is none to a name, by what is at the place where it is taken. -/
lemma canonicalFrom_cons_dots (links : Nat) (here : Place) {dots : Step} (rest : List Step)
    (hdots : ∀ n, dots ≠ .name n) :
    fs.canonicalFrom links here (dots :: rest) =
      match fs.entry? here with
      | none => .error .notFound
      | some (.leaf _) => .error .notDirectory
      | some (.directory ..) =>
        fs.canonicalFrom links (if dots = .up then here.dropLast else here) rest := by
  cases dots with
  | name n => exact absurd rfl (hdots n)
  | stay => cases links <;> rfl
  | up => cases links <;> rfl
  | directory => cases links <;> rfl

/-- Dots and slashes are taken off the text, where there is a directory. -/
lemma canonicalFrom_dots {dots : Step} (hdots : ∀ n, dots ≠ .name n) (h : fs.Passable false here) :
    fs.canonicalFrom links here (dots :: rest) =
      fs.canonicalFrom links (if dots = .up then here.dropLast else here) rest := by
  obtain ⟨mode, hmode, -⟩ := h
  obtain ⟨entries, he⟩ := shape?_eq_directory_iff.mp hmode
  rw [canonicalFrom_cons_dots links here rest hdots, he]

/-- A slash at the end leaves the walk where it is. -/
lemma canonicalFrom_directory (h : fs.Passable false here) :
    fs.canonicalFrom links here (.directory :: rest) = fs.canonicalFrom links here rest :=
  canonicalFrom_dots (fun _ => Step.noConfusion) h

/-- A single dot leaves the walk where it is. -/
lemma canonicalFrom_stay (h : fs.Passable false here) :
    fs.canonicalFrom links here (.stay :: rest) = fs.canonicalFrom links here rest :=
  canonicalFrom_dots (fun _ => Step.noConfusion) h

/-- Two dots take the walk to the directory above. -/
lemma canonicalFrom_up (h : fs.Passable false here) :
    fs.canonicalFrom links here (.up :: rest) = fs.canonicalFrom links here.dropLast rest :=
  canonicalFrom_dots (fun _ => Step.noConfusion) h

/-- A walk that goes on behind a dot or a slash has come to a directory there. -/
lemma passable_of_canonicalFrom {dots : Step} (hdots : ∀ n, dots ≠ .name n)
    (h : fs.canonicalFrom links here (dots :: rest) = .ok goal) : fs.Passable false here := by
  rw [canonicalFrom_cons_dots links here rest hdots] at h
  rcases he : fs.entry? here with _ | _ | ⟨mode, entries⟩
  · rw [he] at h
    cases h
  · rw [he] at h
    cases h
  · exact ⟨mode, shape?_eq_directory_iff.mpr ⟨entries, he⟩, fun h => absurd h (by decide)⟩

/-- A name that is no link is put behind the text. -/
lemma canonicalFrom_name (h : fs.readLink (pathOf (here ++ [n])) = .ok none) :
    fs.canonicalFrom links here (.name n :: rest) = fs.canonicalFrom links (here ++ [n]) rest := by
  rw [canonicalFrom_cons_name, h]

/-- Behind a link the walk goes on with the steps of its target. -/
lemma canonicalFrom_link (h : fs.readLink (pathOf (here ++ [n])) = .ok (some target)) :
    fs.canonicalFrom (links + 1) here (.name n :: rest) =
      fs.canonicalFrom links (startOf target here) (steps target ++ rest) := by
  rw [canonicalFrom_cons_name, h]
  rfl

/-- A walk that goes on behind a name has looked it up from the root, and a link was left to follow if
the name is that of a link. -/
lemma of_canonicalFrom_name (h : fs.canonicalFrom links here (.name n :: rest) = .ok goal) :
    fs.readLink (pathOf (here ++ [n])) = .ok none ∨
      ∃ target fewer, fs.readLink (pathOf (here ++ [n])) = .ok (some target) ∧ links = fewer + 1 := by
  rw [canonicalFrom_cons_name] at h
  rcases hlook : fs.readLink (pathOf (here ++ [n])) with e | _ | target
  · rw [hlook] at h
    cases h
  · exact .inl rfl
  · rw [hlook] at h
    cases links with
    | zero => cases h
    | succ fewer => exact .inr ⟨target, fewer, rfl, rfl⟩

/-- **Induction along a walk that finds a canonical path,** with one case for each kind of step.

**Proof sketch.** Induction on the links that may be followed, and for each number of them on the
steps: only behind a link the list of steps can grow, and there a link fewer may be followed. -/
lemma canonicalFrom_induction {motive : (links : Nat) → (here : Place) → (path : List Step) → Prop}
    (nil : ∀ links, motive links goal [])
    (dots : ∀ {links here dots rest}, (∀ n, dots ≠ .name n) → fs.Passable false here →
      motive links (if dots = .up then here.dropLast else here) rest →
        motive links here (dots :: rest))
    (name : ∀ {links here n rest}, fs.readLink (pathOf (here ++ [n])) = .ok none →
      motive links (here ++ [n]) rest → motive links here (.name n :: rest))
    (link : ∀ {fewer here n target rest}, fs.readLink (pathOf (here ++ [n])) = .ok (some target) →
      motive fewer (startOf target here) (steps target ++ rest) →
        motive (fewer + 1) here (.name n :: rest))
    (links : Nat) (here : Place) (path : List Step)
    (h : fs.canonicalFrom links here path = .ok goal) : motive links here path := by
  induction links using Nat.strongRecOn generalizing here path with
  | ind links ihlinks =>
    induction path generalizing here with
    | nil =>
      obtain rfl := Except.ok.inj ((canonicalFrom_nil links here).symm.trans h)
      exact nil links
    | cons step rest ih =>
      have hdots : (∀ n, step ≠ .name n) → motive links here (step :: rest) := by
        intro hstep
        have hpass := passable_of_canonicalFrom hstep h
        rw [canonicalFrom_dots hstep hpass] at h
        exact dots hstep hpass (ih _ h)
      cases step with
      | directory => exact hdots fun _ => Step.noConfusion
      | stay => exact hdots fun _ => Step.noConfusion
      | up => exact hdots fun _ => Step.noConfusion
      | name n =>
        rcases of_canonicalFrom_name h with hlook | ⟨target, fewer, hlook, rfl⟩
        · rw [canonicalFrom_name hlook] at h
          exact name hlook (ih _ h)
        · rw [canonicalFrom_link hlook] at h
          exact link hlook (ihlinks fewer (Nat.lt_succ_self _) _ _ h)

/-! ## Where a canonical path leads -/

/-- **A walk that finds a canonical path is a walk by names.** It asks more of the directories above
the names than a walk does; here this is left out.

**Proof sketch.** Induction along the walk. A name that was looked up from the root stands in the
directory that the walk has come to, so this is one that can be passed through. -/
lemma WellFormed.exists_walked_of_canonicalFrom (wf : fs.WellFormed) (links : Nat) (here : Place)
    (path : List Step) (hhere : fs.Solid here) (hpath : ∀ n, .name n ∈ path → IsStep n)
    (h : fs.canonicalFrom links here path = .ok goal) :
    ∃ left, Walked fs false links here path left goal := by
  revert hhere hpath
  refine canonicalFrom_induction (motive := fun links here path => fs.Solid here →
    (∀ n, .name n ∈ path → IsStep n) → ∃ left, Walked fs false links here path left goal)
    (fun links _ _ => ⟨links, .done⟩) ?dots ?name ?link links here path h
  case dots =>
    intro links here dots rest hdots hpass ih hhere hpath
    have hrest : ∀ n, .name n ∈ rest → IsStep n := fun n hn => hpath n (List.mem_cons_of_mem _ hn)
    cases dots with
    | directory => exact (ih hhere hrest).imp fun _ => .directory hpass
    | stay => exact (ih hhere hrest).imp fun _ => .stay hpass
    | up => exact (ih (solid_dropLast hpass.choose_spec.1) hrest).imp fun _ => .up hpass
    | name n => exact absurd rfl (hdots n)
  case name =>
    intro links here n rest hlook ih hhere hpath
    obtain ⟨hpass, hlong, shape, hshape, htarget⟩ :=
      wf.of_readLink_pathOf hhere (hpath n List.mem_cons_self) hlook
    have hsolid : fs.Solid (here ++ [n]) :=
      ⟨shape, hshape, fun target heq => by simp [heq, Shape.target?] at htarget⟩
    have hrest : ∀ n, .name n ∈ rest → IsStep n := fun n hn => hpath n (List.mem_cons_of_mem _ hn)
    exact (ih hsolid hrest).imp fun _ => .name hpass hlong hsolid
  case link =>
    intro fewer here n target rest hlook ih hhere hpath
    obtain ⟨hpass, hlong, shape, hshape, htarget⟩ :=
      wf.of_readLink_pathOf hhere (hpath n List.mem_cons_self) hlook
    obtain rfl : shape = .link target := by cases shape <;> simp_all [Shape.target?]
    have hsteps : ∀ n, .name n ∈ steps target ++ rest → IsStep n := by
      intro n hn
      rcases List.mem_append.mp hn with hn | hn
      · exact (mem_pieces_of_mem_steps hn).2
      · exact hpath n (List.mem_cons_of_mem _ hn)
    have hsolid := FileSystem.solid_startOf hpass.choose_spec.1 target
    exact (ih hsolid hsteps).imp fun _ => .link hpass hlong hshape

/-- **A canonical path leads where the names lead.** -/
lemma WellFormed.resolve_of_canonicalPlace (wf : fs.WellFormed)
    (h : fs.canonicalPlace path = .ok goal) : fs.resolve .canonical path = .ok goal := by
  unfold canonicalPlace at h
  cases hspelling : spellingError? path with
  | some e => simp [hspelling] at h
  | none =>
    simp only [hspelling] at h
    exact (resolve_eq_ok_iff rfl).mpr ⟨hspelling, wf.exists_walked_of_canonicalFrom _ _ _
      (wf.solid_startOf path) (fun n hn => (mem_pieces_of_mem_steps hn).2) h⟩

/-! ## Where a canonical path is found -/

/-- The places at which the names of some steps are looked up. `jump` says which ones they are behind a
link. -/
def waySteps (fs : FileSystem) (jump : Place → List Step → List Place) :
    Place → List Step → List Place
  | _, [] => []
  | here, .name n :: rest =>
    (here ++ [n]) ::
      match fs.entry? (here ++ [n]) with
      | some (.leaf (.link target)) => jump (startOf target here) (steps target ++ rest)
      | _ => waySteps fs jump (here ++ [n]) rest
  | here, .up :: rest => waySteps fs jump here.dropLast rest
  | here, _ :: rest => waySteps fs jump here rest

/-- The places at which the names of some steps are looked up, when at most `links` links are
followed. -/
def wayFrom (fs : FileSystem) : (links : Nat) → Place → List Step → List Place
  | 0 => waySteps fs fun _ _ => []
  | links + 1 => waySteps fs (wayFrom fs links)

/-- **The way of a path:** the places at which its names are looked up, one after the other, when all
links are followed and dots are taken off the text. Their paths from the root are those under which the
canonical path is looked for. -/
def way (fs : FileSystem) (path : Path) : List Place :=
  fs.wayFrom maxLinks (startOf path fs.workingDirectory) (steps path)

/-- A slash at the end is no place on the way. -/
lemma wayFrom_directory (links : Nat) (here : Place) (rest : List Step) :
    fs.wayFrom links here (.directory :: rest) = fs.wayFrom links here rest := by
  cases links <;> rfl

/-- A single dot is no place on the way. -/
lemma wayFrom_stay (links : Nat) (here : Place) (rest : List Step) :
    fs.wayFrom links here (.stay :: rest) = fs.wayFrom links here rest := by
  cases links <;> rfl

/-- Two dots are no place on the way, but it goes on from another one. -/
lemma wayFrom_up (links : Nat) (here : Place) (rest : List Step) :
    fs.wayFrom links here (.up :: rest) = fs.wayFrom links here.dropLast rest := by
  cases links <;> rfl

/-- The places that come behind a link. -/
def wayJump (fs : FileSystem) : Nat → Place → List Step → List Place
  | 0 => fun _ _ => []
  | links + 1 => fs.wayFrom links

/-- The way by its first name, and by what has that name. -/
lemma wayFrom_cons_name (links : Nat) (here : Place) (n : Name) (rest : List Step) :
    fs.wayFrom links here (.name n :: rest) = (here ++ [n]) ::
      match fs.entry? (here ++ [n]) with
      | some (.leaf (.link target)) => fs.wayJump links (startOf target here) (steps target ++ rest)
      | _ => fs.wayFrom links (here ++ [n]) rest := by
  cases links <;> rfl

/-- The way goes through a name that is no link, and on from there. -/
lemma wayFrom_name (hsolid : fs.Solid (here ++ [n])) :
    fs.wayFrom links here (.name n :: rest) = (here ++ [n]) :: fs.wayFrom links (here ++ [n]) rest := by
  obtain ⟨shape, hshape, hlink⟩ := hsolid
  rw [wayFrom_cons_name]
  rcases hentry : fs.entry? (here ++ [n]) with _ | (id | target) | ⟨mode, entries⟩
  · rfl
  · rfl
  · rw [shape?_eq_link_iff.mpr hentry] at hshape
    exact absurd (Option.some.inj hshape).symm (hlink target)
  · rfl

/-- The way goes through a link, and on with the steps of its target. -/
lemma wayFrom_link (htarget : fs.shape? (here ++ [n]) = some (.link target)) :
    fs.wayFrom (links + 1) here (.name n :: rest) =
      (here ++ [n]) :: fs.wayFrom links (startOf target here) (steps target ++ rest) := by
  rw [wayFrom_cons_name, shape?_eq_link_iff.mp htarget]
  rfl

/-- **A walk by names finds a canonical path,** if its start can be reached from the root, and if no
path on the way is too long.

**Proof sketch.** Induction on the walk, which stays where one can get from the root. So every name on
the way can be looked up from there, and what is found is what the walk has met. -/
lemma Walked.canonicalFrom_eq_ok {path : List Step} (wf : fs.WellFormed)
    (h : Walked fs false links here path left goal) (hhere : fs.Reachable here)
    (hfits : ∀ place ∈ fs.wayFrom links here path, Fits (pathOf place)) :
    fs.canonicalFrom links here path = .ok goal := by
  induction h with
  | done => exact canonicalFrom_nil _ _
  | directory hpass _ ih =>
    rw [wayFrom_directory] at hfits
    rw [canonicalFrom_directory hpass]
    exact ih hhere hfits
  | stay hpass _ ih =>
    rw [wayFrom_stay] at hfits
    rw [canonicalFrom_stay hpass]
    exact ih hhere hfits
  | up hpass _ ih =>
    rw [wayFrom_up] at hfits
    rw [canonicalFrom_up hpass]
    exact ih hhere.dropLast hfits
  | name hpass hn hsolid _ ih =>
    obtain ⟨shape, hshape, hlink⟩ := id hsolid
    rw [wayFrom_name hsolid] at hfits
    have hlook := readLink_pathOf wf hhere hpass hshape (hfits _ List.mem_cons_self)
    have hnone : shape.target? = none := by cases shape <;> simp_all [Shape.target?]
    rw [hnone] at hlook
    rw [canonicalFrom_name hlook]
    exact ih (hhere.concat hpass _) fun place hplace => hfits place (List.mem_cons_of_mem _ hplace)
  | link hpass hn htarget _ ih =>
    rw [wayFrom_link htarget] at hfits
    have hlook := readLink_pathOf wf hhere hpass htarget (hfits _ List.mem_cons_self)
    rw [canonicalFrom_link hlook]
    exact ih (hhere.startOf _) fun place hplace => hfits place (List.mem_cons_of_mem _ hplace)

/-- **Where a canonical path is found:** where the names lead, if the working directory can be reached
from the root and no path on the way is too long. -/
lemma WellFormed.canonicalPlace_of_resolve (wf : fs.WellFormed)
    (hgoal : fs.resolve .canonical path = .ok goal) (hreachable : fs.Reachable fs.workingDirectory)
    (hfits : ∀ place ∈ fs.way path, Fits (pathOf place)) : fs.canonicalPlace path = .ok goal := by
  obtain ⟨hspelling, left, hwalked⟩ := (resolve_eq_ok_iff rfl).mp hgoal
  rw [canonicalPlace, hspelling]
  exact hwalked.canonicalFrom_eq_ok wf (hreachable.startOf path) hfits

/-- **The way to a file ends at the file,** whatever directories it goes through and whatever links it
follows: a walk from a directory comes to a file under a name.

**Proof sketch.** Induction on the walk. Each step to a name puts its place on the way; in a file no
further step can be taken, so the last name is the file. -/
lemma Walked.mem_way {path : List Step} {dots : Bool} (h : Walked fs dots links here path left goal)
    {mode : Mode} (hhere : fs.shape? here = some (.directory mode))
    (hfile : fs.shape? goal = some .file) : goal ∈ fs.wayFrom links here path := by
  induction h generalizing mode with
  | done => simp [hhere] at hfile
  | directory _ _ ih =>
    rw [wayFrom_directory]
    exact ih hhere hfile
  | stay _ _ ih =>
    rw [wayFrom_stay]
    exact ih hhere hfile
  | up _ _ ih =>
    rw [wayFrom_up]
    obtain ⟨m, hm⟩ := directory_dropLast hhere
    exact ih hm hfile
  | @name _ _ here _ _ n _ _ hsolid hrest ih =>
    rw [wayFrom_name hsolid]
    obtain ⟨shape, hshape, hlink⟩ := id hsolid
    cases shape with
    | link target => exact absurd rfl (hlink target)
    | directory m => exact List.mem_cons_of_mem _ (ih hshape hfile)
    | file =>
      -- in a file no further step can be taken, so the walk is at its end
      have hclosed : ∀ {ask}, ¬ fs.Passable ask (here ++ [n]) := by
        rintro ask ⟨m, hm, -⟩
        simp [hshape] at hm
      cases hrest with
      | done => exact List.mem_cons_self
      | directory hpass => exact absurd hpass hclosed
      | stay hpass => exact absurd hpass hclosed
      | up hpass => exact absurd hpass hclosed
      | name hpass => exact absurd hpass hclosed
      | link hpass => exact absurd hpass hclosed
  | link _ _ htarget _ ih =>
    rw [wayFrom_link htarget]
    obtain ⟨m, hm⟩ := directory_startOf hhere _
    exact List.mem_cons_of_mem _ (ih hm hfile)

/-- What a path leads to, if it is a file, is on the way of the path. -/
lemma WellFormed.mem_way (wf : fs.WellFormed) (hgoal : fs.resolve .toFile path = .ok goal)
    (hfile : fs.shape? goal = some .file) : goal ∈ fs.way path := by
  obtain ⟨-, left, hwalked⟩ := (resolve_eq_ok_iff rfl).mp hgoal
  obtain ⟨mode, hmode⟩ := wf.workingDirectory
  obtain ⟨m, hm⟩ := directory_startOf (by rw [shape?, hmode]; rfl) path
  exact hwalked.mem_way hm hfile

/-- A walk that finds a canonical path finds it in a tree that is kept.

**Proof sketch.** Induction along the walk. What a step finds is found in the other tree as well,
because directories can still be passed through and links have their targets. -/
lemma Keeps.canonicalFrom (h : fs.Keeps fs') (links : Nat) (here : Place) (path : List Step)
    (hgoal : fs.canonicalFrom links here path = .ok goal) :
    fs'.canonicalFrom links here path = .ok goal := by
  refine canonicalFrom_induction
    (motive := fun links here path => fs'.canonicalFrom links here path = .ok goal)
    (fun links => canonicalFrom_nil links goal) ?dots ?name ?link links here path hgoal
  case dots =>
    intro links here dots rest hdots hpass ih
    exact (canonicalFrom_dots hdots (h.passable hpass)).trans ih
  case name =>
    intro links here n rest hlook ih
    exact (canonicalFrom_name (h.readLink hlook)).trans ih
  case link =>
    intro fewer here n target rest hlook ih
    exact (canonicalFrom_link (h.readLink hlook)).trans ih

/-- **A canonical path stays what it is** in a tree that is kept. -/
lemma Keeps.canonicalPath (h : fs.Keeps fs') {canonical : Path}
    (hpath : fs.canonicalPath path = .ok canonical) : fs'.canonicalPath path = .ok canonical := by
  unfold FileSystem.canonicalPath FileSystem.canonicalPlace at hpath ⊢
  rw [h.workingDirectory]
  cases hspelling : spellingError? path with
  | some e => simp [hspelling, Except.map] at hpath
  | none =>
    simp only [hspelling] at hpath ⊢
    cases hgoal : fs.canonicalFrom maxLinks (startOf path fs.workingDirectory) (steps path) with
    | error e => simp [hgoal, Except.map] at hpath
    | ok goal => rwa [h.canonicalFrom _ _ _ hgoal, ← hgoal]

/-! ## Where a walk sees the same -/

section Congruence

variable (hsight : ∀ place, fs'.sight? place = fs.sight? place)
  (hstart : fs'.workingDirectory = fs.workingDirectory)

include hsight hstart

/-- Whether a path leads to a link, and to which one, is decided by what a walk sees. -/
lemma readLink_congr (path : Path) : fs'.readLink path = fs.readLink path := by
  unfold readLink lookUp
  rw [resolve_congr hsight hstart]
  cases fs.resolve .toEntry path with
  | error e => rfl
  | ok place =>
    have hplace := hsight place
    unfold sight? at hplace
    rcases h : fs.entry? place with _ | (_ | _) | _ <;>
      rcases h' : fs'.entry? place with _ | (_ | _) | _ <;> simp_all [Entry.sight]

/-- The walk that finds a canonical path is the same where a walk sees the same.

**Proof sketch.** Induction on the links and on the steps. A name is looked up alike, and a dot is taken
where there is a directory in both trees or in none. -/
lemma canonicalFrom_congr (links : Nat) (here : Place) (path : List Step) :
    fs'.canonicalFrom links here path = fs.canonicalFrom links here path := by
  induction links using Nat.strongRecOn generalizing here path with
  | ind links ihlinks =>
    induction path generalizing here with
    | nil => rw [canonicalFrom_nil, canonicalFrom_nil]
    | cons step rest ih =>
      have hdots : ∀ dots : Step, (∀ n, dots ≠ .name n) →
          fs'.canonicalFrom links here (dots :: rest) = fs.canonicalFrom links here (dots :: rest) := by
        intro dots hdots
        rw [canonicalFrom_cons_dots _ _ _ hdots, canonicalFrom_cons_dots _ _ _ hdots, ih]
        obtain ⟨h, h'⟩ | ⟨_, _, h, h'⟩ | ⟨_, _, _, _, h, h', -⟩ := entry?_of_sight? (hsight here) <;>
          rw [h, h']
      cases step with
      | directory => exact hdots .directory fun _ => Step.noConfusion
      | stay => exact hdots .stay fun _ => Step.noConfusion
      | up => exact hdots .up fun _ => Step.noConfusion
      | name n =>
        have hjump : fs'.canonicalJump links = fs.canonicalJump links := by
          cases links with
          | zero => rfl
          | succ fewer => exact funext₂ fun here steps => ihlinks fewer (Nat.lt_succ_self _) here steps
        rw [canonicalFrom_cons_name, canonicalFrom_cons_name, readLink_congr hsight hstart, ih, hjump]

/-- **What the canonical path is, or why there is none,** is decided by what a walk sees. -/
lemma canonicalPath_congr (path : Path) : fs'.canonicalPath path = fs.canonicalPath path := by
  rw [canonicalPath, canonicalPath, canonicalPlace, canonicalPlace, hstart]
  simp only [canonicalFrom_congr hsight hstart]

end Congruence

end FileSystem

end Detab
