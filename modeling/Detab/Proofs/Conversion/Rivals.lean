import Detab.Proofs.Conversion.AllFiles
import Detab.Proofs.FileSystem.Moving
import Detab.Proofs.Replacement.Permissions
import Mathlib.Logic.Function.Basic

set_option relaxedAutoImplicit false
set_option autoImplicit false

/-!
# Two processes that convert one file

Two processes convert the same file at the same time, each under a name of its own for the file and
with a temporary file of its own. This file says what the tree looks like at any time, by how far
either of them has come, and that each change that one of them makes keeps it so.

## Main definitions

* `Detab.Conversion.Rivals` — two conversions, and `Detab.Conversion.Rivals.race`, their race.
* `Detab.Conversion.Rivals.Meet` — they convert one file, and nothing but the other one is in the way
  of either of them.
* `Detab.Conversion.Rivals.Progress` — how far a conversion has come.
* `Detab.Conversion.Rivals.Shared` — **what the tree looks like** in the meantime.

## Main results

* `Detab.Conversion.Rivals.Shared.settle`, `Detab.Conversion.Rivals.Shared.create`,
  `Detab.Conversion.Rivals.Shared.fill`, `Detab.Conversion.Rivals.Shared.rename` — **the steps.**

## Design

The sides of the race are truth values, and what belongs to them are functions of the side. Two paths
may lead to one place, or to two places that are names of one file. In both cases each side looks
after its own place, which the other one may overwrite or not.
-/

namespace Detab.Conversion

open Detab.Path FileSystem Replacement Expansion

/-- **Two processes that each convert a file,** with what belongs to either of them. -/
structure Rivals where
  start : FileSystem
  platform : Bool → Platform
  width : Bool → Width
  path : Bool → Path
  session : Bool → Session

namespace Rivals

/-- The conversion of one side. -/
def conversion (rivals : Rivals) (side : Bool) : Script (Except Error Bool) :=
  (convertFile (rivals.platform side) (rivals.path side) (rivals.width side)).run

/-- The race of the two conversions. -/
def race (rivals : Rivals) : Race (Except Error Bool) (Except Error Bool) where
  fs := rivals.start
  left := rivals.conversion true
  leftSession := rivals.session true
  right := rivals.conversion false
  rightSession := rivals.session false

/-- **Both convert one file,** which has its names at the places `goal`, and nothing but the other one
is in the way of either of them: the file can be read, its expansions fit, the directories of its
names can be written, and the temporary paths are free; their places `slot`, which are beside those of
the file, are distinct. Neither side comes across a path that is too long, and a side that has a link
before it can reach the working directory from the root. -/
structure Meet (rivals : Rivals) (goal slot : Bool → Place) (old : File) : Prop where
  wellFormed : rivals.start.WellFormed
  leads : ∃ id, ∀ side, rivals.start.LeadsTo .toFile (rivals.path side) (goal side) id old
  canRead : old.mode.canRead = true
  fits : ∀ side, ∃ result,
    expand (rivals.platform side).canReserve old.contents (rivals.width side) = .ok result
  canWrite : ∀ side, ∃ mode,
    rivals.start.node? (goal side).dropLast = some (.directory mode) ∧ mode.canWrite = true
  beside : ∀ side, ∃ parent name, goal side = parent ++ [name] ∧
    slot side = parent ++ [temporaryName (rivals.session side).stamp.1 name]
  free : ∀ side, Free ⟨rivals.start, rivals.session side⟩ (rivals.path side)
  distinct : slot true ≠ slot false
  reachable : ∀ side, rivals.start.isLink (rivals.path side) = .ok true →
    rivals.start.Reachable rivals.start.workingDirectory
  limits : ∀ side, WithinLimits rivals.start (rivals.session side).stamp.1 (rivals.path side)

/-- What a side has before it: the path that it replaces and its temporary path, which end under the
names `name` and `t` in one directory. -/
structure Prepared (rivals : Rivals) (goal slot : Bool → Place) (old : File) (side : Bool)
    (destination temporary : Path) (parent : Place) (mode : Mode) (entries : Directory)
    (name t : Name) : Prop where
  leads : destination? rivals.start (rivals.path side) = some destination
  resolve : rivals.start.resolve .toFile destination = .ok (goal side)
  chosen : temporaryPath? (rivals.session side).stamp.1 destination = some temporary
  lastStep : rivals.start.lastStep destination = .ok (.entry parent mode entries name false)
  lastStep_temporary : rivals.start.lastStep temporary = .ok (.entry parent mode entries t false)
  canWrite : mode.canWrite = true
  goal_eq : goal side = parent ++ [name]
  slot_eq : slot side = parent ++ [t]

variable {rivals : Rivals} {goal slot : Bool → Place} {old : File} {side other : Bool}
  {destination temporary : Path} {parent place : Place} {mode : Mode} {entries : Directory}
  {name t : Name} {fs fs' : FileSystem} {id : FileId} {file : File} {contents : ByteArray}

namespace Meet

variable (meet : rivals.Meet goal slot old)

include meet

/-- A side finds a file in a directory that can be written. -/
lemma exists_parent (side : Bool) : ∃ id parent name mode entries,
    goal side = parent ++ [name] ∧
      slot side = parent ++ [temporaryName (rivals.session side).stamp.1 name] ∧
      rivals.start.LeadsTo .toFile (rivals.path side) (parent ++ [name]) id old ∧
      rivals.start.entry? parent = some (.directory mode entries) ∧ mode.canWrite = true := by
  obtain ⟨id, hleads⟩ := meet.leads
  obtain ⟨parent, name, hgoal, hslot⟩ := meet.beside side
  obtain ⟨mode, hwritable, hwrite⟩ := meet.canWrite side
  rw [hgoal, List.dropLast_concat] at hwritable
  obtain ⟨entries, hparent⟩ := node?_eq_directory_iff.mp hwritable
  exact ⟨id, parent, name, mode, entries, hgoal, hslot, hgoal ▸ hleads side, hparent, hwrite⟩

/-- Nothing is there yet under the temporary name. -/
lemma entry?_slot (side : Bool) : rivals.start.entry? (slot side) = none := by
  obtain ⟨id, parent, name, mode, entries, -, hslot, hleads, hparent, -⟩ := meet.exists_parent side
  rw [hslot]
  exact (free_iff_eq_none meet.wellFormed hleads hparent (meet.reachable side) (meet.limits side)).mp
    (meet.free side)

/-- **What each side has before it.** That it can be found at all is due to the limits and to the working
directory; what a side goes for ends with the name of the file, and the temporary path is beside it. -/
lemma exists_prepared (side : Bool) : ∃ destination temporary parent mode entries name t,
    rivals.Prepared goal slot old side destination temporary parent mode entries name t := by
  obtain ⟨id, parent, name, mode, entries, hgoal, hslot, hleads, hparent, hwrite⟩ :=
    meet.exists_parent side
  obtain ⟨destination, temporary, h⟩ :=
    exists_chosen meet.wellFormed hleads hparent (meet.reachable side) (meet.limits side)
  have hfind : entries.find? name = some (.leaf (.file id)) := find?_of_node? hparent hleads.node
  have hresolve : rivals.start.resolve .toFile destination = .ok (goal side) :=
    hgoal ▸ resolve_of_lastStep h.lastStep hfind
  exact ⟨destination, temporary, parent, mode, entries, name, _, h.leads, hresolve, h.chosen, h.lastStep,
    h.lastStep_temporary, hwrite, hgoal, hslot⟩

/-- Each side's path leads to the place of the file that both sides convert. -/
lemma resolve (side : Bool) :
    rivals.start.resolve .toFile (rivals.path side) = .ok (goal side) := by
  obtain ⟨id, hleads⟩ := meet.leads
  exact (hleads side).resolve

/-- The place of the file is not a place of a temporary file, of its own side or of the other one.
-/
lemma goal_ne_slot (side other : Bool) : goal side ≠ slot other := by
  obtain ⟨id, hleads⟩ := meet.leads
  intro heq
  have hfree := node?_eq_none_iff.mpr (meet.entry?_slot other)
  rw [← heq, (hleads side).node] at hfree
  simp at hfree

/-- The two sides have different places for their temporary files. -/
lemma slot_ne (hne : other ≠ side) : slot other ≠ slot side := by
  cases side <;> cases other
  · exact absurd rfl hne
  · exact meet.distinct
  · exact meet.distinct.symm
  · exact absurd rfl hne

/-- No directory is at one of the places that change. -/
lemma ne_of_directory (h : rivals.start.node? place = some (.directory mode)) (side : Bool) :
    place ≠ goal side ∧ place ≠ slot side := by
  obtain ⟨id, hleads⟩ := meet.leads
  constructor
  · rintro rfl
    rw [(hleads side).node] at h
    simp at h
  · rintro rfl
    rw [node?_eq_none_iff.mpr (meet.entry?_slot side)] at h
    simp at h

end Meet

/-! ## The tree in the meantime -/

/-- **How far a conversion has come:** it has not changed anything yet, it has a draft, or there is
nothing more that it will change. -/
inductive Progress where
  | ahead
  | drafting (id : FileId) (file : File)
  | finished

namespace Progress

/-- The number of the draft. -/
def id? : Progress → Option FileId
  | drafting id _ => some id
  | _ => none

/-- What is under the temporary name. -/
def Shows (fs : FileSystem) (slot : Place) : Progress → Prop
  | drafting id file => fs.node? slot = some (.leaf (.file id)) ∧ fs.files[id]? = some file
  | _ => fs.node? slot = none

variable {progress : Progress}

/-- What is under a temporary name is seen at its place alone, so any tree with the same node and
the same file there shows the same. -/
lemma Shows.congr {slot : Place} (h : progress.Shows fs slot)
    (hnode : fs'.node? slot = fs.node? slot)
    (hfiles : ∀ id, progress.id? = some id → fs'.files[id]? = fs.files[id]?) :
    progress.Shows fs' slot := by
  cases progress with
  | drafting id file => exact ⟨hnode.trans h.1, (hfiles id rfl).trans h.2⟩
  | ahead => exact hnode.trans h
  | finished => exact hnode.trans h

/-- A draft is a file. -/
lemma Shows.id_lt {slot : Place} (h : progress.Shows fs slot) (hid : progress.id? = some id) :
    id < fs.files.length := by
  cases progress with
  | drafting id' file =>
    obtain rfl : id' = id := Option.some.inj hid
    exact (List.getElem?_eq_some_iff.mp h.2).1
  | ahead => simp [id?] at hid
  | finished => simp [id?] at hid

end Progress

/-- What a file may hold while both convert it. -/
def Possible (rivals : Rivals) (old : File) (contents : ByteArray) : Prop :=
  contents = old.contents ∨ ∃ side, contents = expanded (rivals.width side) old.contents

/-- A place holds a file with these contents that is nobody's draft. -/
def Holds (fs : FileSystem) (progress : Bool → Progress) (mode : Mode) (place : Place)
    (contents : ByteArray) : Prop :=
  ∃ id, fs.node? place = some (.leaf (.file id)) ∧ fs.files[id]? = some ⟨contents, mode⟩ ∧
    ∀ side, (progress side).id? ≠ some id

/-- **What the tree looks like** when either side has come so far. -/
structure Shared (rivals : Rivals) (goal slot : Bool → Place) (old : File)
    (progress : Bool → Progress) (fs : FileSystem) : Prop where
  root : fs.root.WellFormed fs.files.length
  workingDirectory : fs.workingDirectory = rivals.start.workingDirectory
  /-- Elsewhere the tree is the one from the start. -/
  node : ∀ place, (∀ side, place ≠ goal side ∧ place ≠ slot side) →
    fs.node? place = rivals.start.node? place
  files : rivals.start.files <+: fs.files
  slots : ∀ side, (progress side).Shows fs (slot side)
  drafts : ∀ side id, (progress side).id? = some id → rivals.start.files.length ≤ id
  apart : ∀ side other id, other ≠ side → (progress side).id? = some id →
    (progress other).id? ≠ some id
  /-- Each place of the file holds one of the possible contents, and what is there when its side has
  nothing more to change has no tab. -/
  goals : ∀ side, ∃ contents, Holds fs progress old.mode (goal side) contents ∧
    rivals.Possible old contents ∧ (progress side = .finished → tab ∉ unpack contents)

/-- Other drafts do not count. -/
lemma Holds.congr {progress progress' : Bool → Progress} (h : Holds fs progress mode place contents)
    (hnode : fs'.node? place = fs.node? place)
    (hfiles : ∀ id, (∀ side, (progress side).id? ≠ some id) → id < fs.files.length →
      fs'.files[id]? = fs.files[id]? ∧ ∀ side, (progress' side).id? ≠ some id) :
    Holds fs' progress' mode place contents := by
  obtain ⟨id, hid, hfile, hnone⟩ := h
  obtain ⟨hsame, hnone'⟩ := hfiles id hnone (List.getElem?_eq_some_iff.mp hfile).1
  exact ⟨id, hnode.trans hid, hsame.trans hfile, hnone'⟩

/-- A draft has a number of its own, also when it has just been made. -/
lemma id?_update_ne {progress : Bool → Progress} {own : Progress}
    (hown : ∀ id, own.id? = some id → (progress side).id? = some id ∨ id = fs.files.length)
    (hlt : id < fs.files.length) (hnone : (progress other).id? ≠ some id)
    (hside : (progress side).id? ≠ some id) :
    (Function.update progress side own other).id? ≠ some id := by
  rcases eq_or_ne other side with rfl | hne
  · rw [Function.update_self]
    intro hid
    rcases hown id hid with hsame | rfl
    · exact hside hsame
    · exact Nat.lt_irrefl _ hlt
  · rwa [Function.update_of_ne hne]

namespace Shared

variable {progress : Bool → Progress}

/-- At the start both are ahead of everything. -/
lemma start (meet : rivals.Meet goal slot old) :
    rivals.Shared goal slot old (fun _ => .ahead) rivals.start where
  root := meet.wellFormed.root
  workingDirectory := rfl
  node _ _ := rfl
  files := List.prefix_refl _
  slots side := node?_eq_none_iff.mpr (meet.entry?_slot side)
  drafts side id h := by simp [Progress.id?] at h
  apart side other id _ h := by simp [Progress.id?] at h
  goals side := by
    obtain ⟨id, hleads⟩ := meet.leads
    refine ⟨old.contents, ⟨id, (hleads side).node, (hleads side).file, ?_⟩, .inl rfl, ?_⟩
    · simp [Progress.id?]
    · simp

variable (meet : rivals.Meet goal slot old) (shared : rivals.Shared goal slot old progress fs)

include meet shared

/-- **Everything from the start can still be reached.** -/
lemma keeps : rivals.start.Keeps fs := by
  refine ⟨shared.workingDirectory, fun place shape h => ?_⟩
  by_cases hplace : ∀ side, place ≠ goal side ∧ place ≠ slot side
  · rwa [shape?, shared.node place hplace]
  · obtain ⟨side, hside⟩ := not_forall.mp hplace
    rcases not_and_or.mp hside with hgoal | hslot
    · obtain rfl := not_not.mp hgoal
      obtain ⟨id, hleads⟩ := meet.leads
      obtain ⟨-, ⟨id', hnode, -⟩, -⟩ := shared.goals side
      rw [(hleads side).shape] at h
      rw [shape?_eq_file_iff.mpr ⟨id', hnode⟩, h]
    · obtain rfl := not_not.mp hslot
      rw [shape?_eq_none_iff.mpr (meet.entry?_slot side)] at h
      simp at h

/-- Directories are where they were at the start: neither side makes or removes one. -/
lemma node?_directory (h : rivals.start.node? place = some (.directory mode)) :
    fs.node? place = some (.directory mode) :=
  (shared.node place (meet.ne_of_directory h)).trans h

/-- The tree stays well formed while both sides are at work. -/
lemma wellFormed : fs.WellFormed := by
  obtain ⟨mode, hmode⟩ := meet.wellFormed.workingDirectory
  refine ⟨shared.root, mode, ?_⟩
  rw [shared.workingDirectory]
  exact shared.node?_directory meet hmode

/-- **What is found** where a path has led to the file: one of the possible contents, with the old
mode. -/
lemma exists_leadsTo {path : Path} (hpath : rivals.start.resolve .toFile path = .ok (goal side)) :
    ∃ id contents, fs.LeadsTo .toFile path (goal side) id ⟨contents, old.mode⟩ ∧
      rivals.Possible old contents ∧ (progress side = .finished → tab ∉ unpack contents) := by
  obtain ⟨contents, ⟨id, hnode, hfile, -⟩, hpossible, hfinished⟩ := shared.goals side
  exact ⟨id, contents, ⟨(shared.keeps meet).resolve hpath, hnode, hfile⟩, hpossible, hfinished⟩

/-! ### One step -/

/-- **A step of one side,** which changes nothing but what is at the two places of that side and the
file that is its draft. Either its own place of the file is as before, or the expansion is there.

**Proof sketch.** Clause by clause of the invariant. What belongs to the other side is left alone,
because the places and the drafts of the two sides differ. For the place of the file either nothing
has changed, or the expansion is there, which is possible and has no tab. -/
lemma step {own : Progress} (hroot : fs'.root.WellFormed fs'.files.length)
    (hworking : fs'.workingDirectory = fs.workingDirectory)
    (hfiles : ∀ id < fs.files.length, (progress side).id? ≠ some id →
      fs'.files[id]? = fs.files[id]?)
    (hnode : ∀ place, place ≠ goal side → place ≠ slot side → fs'.node? place = fs.node? place)
    (hslot : own.Shows fs' (slot side))
    (hown : ∀ id, own.id? = some id → (progress side).id? = some id ∨ id = fs.files.length)
    (hgoal : (fs'.node? (goal side) = fs.node? (goal side) ∧ (own = .finished → ∀ contents,
        Holds fs progress old.mode (goal side) contents → tab ∉ unpack contents)) ∨
      Holds fs' (Function.update progress side own) old.mode (goal side)
        (expanded (rivals.width side) old.contents)) :
    rivals.Shared goal slot old (Function.update progress side own) fs' := by
  have hcount : rivals.start.files.length ≤ fs.files.length := shared.files.length_le
  have hkept : ∀ place contents, fs'.node? place = fs.node? place →
      Holds fs progress old.mode place contents →
        Holds fs' (Function.update progress side own) old.mode place contents :=
    fun place contents hsame hholds => hholds.congr hsame fun id hnone hlt =>
      ⟨hfiles id hlt (hnone side), fun other =>
        id?_update_ne hown hlt (hnone other) (hnone side)⟩
  refine ⟨hroot, hworking.trans shared.workingDirectory, fun place hplace => ?_, ?_, ?_, ?_, ?_, ?_⟩
  · rw [hnode place (hplace side).1 (hplace side).2, shared.node place hplace]
  · rw [List.prefix_iff_getElem?]
    intro id hid
    have hnot : (progress side).id? ≠ some id := fun h =>
      Nat.not_le.mpr hid (shared.drafts side id h)
    rw [hfiles id (Nat.lt_of_lt_of_le hid hcount) hnot]
    exact List.prefix_iff_getElem?.mp shared.files id hid
  · -- the side that moves shows its new stage, and the other one what it showed before
    intro other
    rcases eq_or_ne other side with rfl | hne
    · rwa [Function.update_self]
    · rw [Function.update_of_ne hne]
      refine (shared.slots other).congr
        (hnode _ (meet.goal_ne_slot side other).symm (meet.slot_ne hne)) fun id hid => ?_
      exact hfiles id ((shared.slots other).id_lt hid) (shared.apart other side id hne.symm hid)
  · intro other id hid
    rcases eq_or_ne other side with rfl | hne
    · rw [Function.update_self] at hid
      rcases hown id hid with hsame | rfl
      · exact shared.drafts other id hsame
      · exact hcount
    · rw [Function.update_of_ne hne] at hid
      exact shared.drafts other id hid
  · intro first second id hne hid
    rcases eq_or_ne first side with rfl | hfirst
    · rw [Function.update_self] at hid
      rw [Function.update_of_ne hne]
      rcases hown id hid with hsame | rfl
      · exact shared.apart first second id hne hsame
      · exact fun h => Nat.lt_irrefl _ ((shared.slots second).id_lt h)
    · rw [Function.update_of_ne hfirst] at hid
      exact id?_update_ne hown ((shared.slots first).id_lt hid)
        (shared.apart first second id hne hid) (shared.apart first side id hfirst.symm hid)
  · intro other
    obtain ⟨contents, hholds, hpossible, hfinished⟩ := shared.goals other
    by_cases hplace : goal other = goal side
    · rcases hgoal with ⟨hsame, htab⟩ | hnew
      · refine ⟨contents, hkept _ _ (hplace ▸ hsame) hholds, hpossible, fun hdone => ?_⟩
        rcases eq_or_ne other side with rfl | hne
        · rw [Function.update_self] at hdone
          exact htab hdone contents hholds
        · rw [Function.update_of_ne hne] at hdone
          exact hfinished hdone
      · exact ⟨_, hplace ▸ hnew, .inr ⟨side, rfl⟩, fun _ =>
          tab_notMem_expanded (rivals.width side) old.contents⟩
    · have hsame := hnode _ hplace (meet.goal_ne_slot other side)
      refine ⟨contents, hkept _ _ hsame hholds, hpossible, fun hdone => ?_⟩
      have hne : other ≠ side := fun h => hplace (h ▸ rfl)
      rw [Function.update_of_ne hne] at hdone
      exact hfinished hdone

/-- **Finding no tab:** then there is nothing more to change.

**Proof sketch.** Only the stage of the side changes. What has been read is what is at the place of
the file, so it has no tab, as the last stage demands. -/
lemma settle (hside : progress side = .ahead) (hread : fs.read (rivals.path side) = .ok contents)
    (htab : tab ∉ unpack contents) :
    rivals.Shared goal slot old (Function.update progress side .finished) fs := by
  have hslot : Progress.finished.Shows fs (slot side) := by
    have hshows := shared.slots side
    rwa [hside] at hshows
  refine shared.step meet shared.root rfl (fun _ _ _ => rfl) (fun _ _ _ => rfl) hslot
    (fun id hid => by simp [Progress.id?] at hid) (.inl ⟨rfl, fun _ contents' hholds => ?_⟩)
  obtain ⟨goal', id, file, hleads, -, rfl⟩ := read_eq_ok_iff.mp hread
  obtain ⟨id', contents'', hleads', -⟩ := shared.exists_leadsTo meet (meet.resolve side)
  obtain ⟨rfl, rfl, rfl⟩ := hleads.unique hleads'
  obtain ⟨id'', hnode, hfile, -⟩ := hholds
  obtain rfl : id = id'' := by simpa using hleads.node.symm.trans hnode
  obtain rfl : contents'' = contents' := by simpa using hleads.file.symm.trans hfile
  exact htab

variable (prepared : rivals.Prepared goal slot old side destination temporary parent mode entries
  name t)

include prepared

/-- The two paths of a side end in the directory from the start, whatever else is in it. -/
lemma exists_lastStep : ∃ now, fs.entry? parent = some (.directory mode now) ∧
    fs.lastStep destination = .ok (.entry parent mode now name false) ∧
    fs.lastStep temporary = .ok (.entry parent mode now t false) := by
  obtain ⟨-, -, -, -, hparent, -⟩ := lastStep_eq_entry_iff.mp prepared.lastStep
  obtain ⟨now, hnow⟩ := node?_eq_directory_iff.mp
    (shared.node?_directory meet (node?_eq_directory_iff.mpr ⟨entries, hparent⟩))
  have hkeeps := shared.keeps meet
  exact ⟨now, hnow, lastStep_of_keeps hkeeps prepared.lastStep hnow,
    lastStep_of_keeps hkeeps prepared.lastStep_temporary hnow⟩

/-- What is replaced has the old mode. -/
lemma modeOf : fs.modeOf destination = .ok old.mode := by
  obtain ⟨id, contents, hleads, -⟩ := shared.exists_leadsTo meet prepared.resolve
  exact hleads.modeOf

/-- **Making the draft.**

**Proof sketch.** The place of the draft is free, by the invariant, and the directory can be
written, so a draft can be made. Its number is new, so it is nobody else's. -/
lemma create (hside : progress side = .ahead) : ∃ fs',
    fs.createNew temporary = .ok (fs.files.length, fs') ∧
      rivals.Shared goal slot old
        (Function.update progress side (.drafting fs.files.length ⟨.empty, .newFile⟩)) fs' := by
  obtain ⟨now, hparent, -, htemporary⟩ := shared.exists_lastStep meet prepared
  have hfree : fs.node? (parent ++ [t]) = none := by
    have hshows := shared.slots side
    rw [hside, prepared.slot_eq] at hshows
    exact hshows
  have room : fs.Room temporary parent mode now t := by
    refine ⟨htemporary, ?_, prepared.canWrite⟩
    rw [← entry?_concat hparent]
    exact node?_eq_none_iff.mp hfree
  have hnode := room.node?_draft ⟨.empty, .newFile⟩
  refine ⟨_, room.createNew, ?_⟩
  refine shared.step meet (room.wellFormed_root_draft (shared.wellFormed meet) _) rfl
    (fun id hid _ => ?_) (fun place _ hplace => ?_) ⟨?_, ?_⟩ (fun id hid => .inr ?_)
    (.inl ⟨?_, by simp⟩)
  · simp [draft, withFile, List.getElem?_append_left hid]
  · rw [hnode, if_neg (prepared.slot_eq ▸ hplace)]
  · rw [hnode, if_pos prepared.slot_eq]
  · simp [draft, withFile]
  · exact (Option.some.inj hid).symm
  · rw [hnode, if_neg (prepared.slot_eq ▸ meet.goal_ne_slot side side)]

omit prepared in
/-- **Changing the draft:** its contents, or its mode.

**Proof sketch.** The draft is the side's own, so the other side's places and drafts are not
touched, and the place of the file holds something else. -/
lemma fill (hside : progress side = .drafting id file) (change : File → File) :
    rivals.Shared goal slot old (Function.update progress side (.drafting id (change file)))
      (fs.changeFile id change) := by
  have hshows : fs.node? (slot side) = some (.leaf (.file id)) ∧ fs.files[id]? = some file := by
    have hshows := shared.slots side
    rwa [hside] at hshows
  refine shared.step meet ?_ rfl (fun id' _ hid' => ?_) (fun _ _ _ => rfl) ⟨hshows.1, ?_⟩
    (fun id' hid' => .inl ?_) (.inl ⟨rfl, by simp⟩)
  · rw [changeFile, List.length_modify]
    exact shared.root
  · have hne : id ≠ id' := by
      rintro rfl
      simp [hside, Progress.id?] at hid'
    simp [changeFile, hne]
  · simp [changeFile, hshows.2]
  · rw [hside]
    exact hid'

/-- Setting the mode of the draft changes the draft. -/
lemma setMode (hside : progress side = .drafting id file) (newMode : Mode) :
    fs.setMode temporary newMode =
      .ok (fs.changeFile id fun file => { file with mode := newMode }) := by
  obtain ⟨now, hparent, -, htemporary⟩ := shared.exists_lastStep meet prepared
  have hentry : fs.entry? (parent ++ [t]) = some (.leaf (.file id)) := by
    have hshows := shared.slots side
    rw [hside, prepared.slot_eq] at hshows
    exact node?_eq_leaf_iff.mp hshows.1
  have hresolve := resolve_of_lastStep htemporary ((entry?_concat hparent t).symm.trans hentry)
  simp only [FileSystem.setMode, hresolve, hentry]

/-- **Giving the draft its name.**

**Proof sketch.** By the invariant the draft is there with the expansion as its contents, and the
place of the file holds a file that is nobody's draft. So the draft is moved over that file, and the
side is at its end. -/
lemma rename (hside : progress side =
      .drafting id ⟨expanded (rivals.width side) old.contents, old.mode⟩) : ∃ fs',
    fs.rename temporary destination = .ok fs' ∧
      rivals.Shared goal slot old (Function.update progress side .finished) fs' := by
  obtain ⟨now, hparent, hdestination, htemporary⟩ := shared.exists_lastStep meet prepared
  obtain ⟨contents, ⟨held, hheld, -, hnone⟩, -⟩ := shared.goals side
  obtain ⟨hslot, hfile⟩ : fs.node? (slot side) = some (.leaf (.file id)) ∧
      fs.files[id]? = some ⟨expanded (rivals.width side) old.contents, old.mode⟩ := by
    have hshows := shared.slots side
    rwa [hside] at hshows
  have hmoves : Moves now t name id held := by
    refine ⟨?_, ?_, fun heq => hnone side (by rw [hside, heq]; rfl)⟩
    · rw [← entry?_concat hparent, ← prepared.slot_eq]
      exact node?_eq_leaf_iff.mp hslot
    · rw [← entry?_concat hparent, ← prepared.goal_eq]
      exact node?_eq_leaf_iff.mp hheld
  have wf := shared.wellFormed meet
  have hnode := node?_moveOver wf hparent hmoves
  rw [← prepared.slot_eq, ← prepared.goal_eq] at hnode
  refine ⟨_, rename_eq_moveOver htemporary hdestination prepared.canWrite hmoves, ?_⟩
  refine shared.step meet (wellFormed_root_moveOver wf hparent hmoves) rfl (fun _ _ _ => rfl)
    (fun place hgoal hslot => ?_) ?_ (fun id hid => by simp [Progress.id?] at hid)
    (.inr ⟨id, ?_, hfile, fun other => ?_⟩)
  · rw [hnode, if_neg hslot, if_neg hgoal]
  · exact (hnode _).trans (if_pos rfl)
  · rw [hnode, if_neg (meet.goal_ne_slot side side), if_pos rfl]
  · rcases eq_or_ne other side with rfl | hne
    · simp [Progress.id?]
    · rw [Function.update_of_ne hne]
      exact shared.apart side other id hne (by rw [hside]; rfl)

end Shared

end Rivals

end Detab.Conversion
