import Detab.FileSystem.Operations
import Detab.Proofs.FileSystem.Walking

set_option relaxedAutoImplicit false
set_option autoImplicit false

/-!
# The file that a path leads to

## Main definitions

* `Detab.FileSystem.LeadsTo` — the file that a path leads to: its place, its number, and what it
  holds.
* `Detab.FileSystem.Names` — a path leads to a file with this number.

## Main results

* `Detab.FileSystem.read_eq_ok_iff`, `Detab.FileSystem.exists_leadsTo_of_modeOf` — what is found at
  a path is what the file holds.
* `Detab.FileSystem.LeadsTo.unique` — a path leads to one file.
* `Detab.FileSystem.Keeps.isLink` — an answer that does not change while a tree is kept.
-/

namespace Detab.FileSystem

variable {fs : FileSystem} {walk : Walk} {path : Path} {goal goal' : Place} {id id' : FileId}
  {file file' : File} {mode : Mode} {contents : ByteArray}

/-- **The file that a path leads to:** its place, its number, and what it holds. -/
structure LeadsTo (fs : FileSystem) (walk : Walk) (path : Path) (goal : Place) (id : FileId)
    (file : File) : Prop where
  resolve : fs.resolve walk path = .ok goal
  node : fs.node? goal = some (.leaf (.file id))
  file : fs.files[id]? = some file

namespace LeadsTo

/-- A path leads to one file. -/
lemma unique (h : fs.LeadsTo walk path goal id file) (h' : fs.LeadsTo walk path goal' id' file') :
    goal = goal' ∧ id = id' ∧ file = file' := by
  obtain rfl : goal = goal' := Except.ok.inj (h.resolve.symm.trans h'.resolve)
  obtain rfl : id = id' := by simpa using h.node.symm.trans h'.node
  exact ⟨rfl, rfl, Option.some.inj (h.file.symm.trans h'.file)⟩

/-- A path that leads to a file leads to the same file by its canonical spelling, where dots are
taken off the text. -/
lemma canonical (h : fs.LeadsTo .toFile path goal id file) :
    fs.LeadsTo .canonical path goal id file :=
  ⟨resolve_canonical h.resolve, h.node, h.file⟩

/-- The place that a path leads to is that of a file. -/
lemma shape (h : fs.LeadsTo walk path goal id file) : fs.shape? goal = some .file :=
  shape?_eq_file_iff.mpr ⟨id, h.node⟩

/-- The place that a path leads to holds the contents and the mode of the file. -/
lemma item? (h : fs.LeadsTo walk path goal id file) :
    fs.item? goal = some (.file file.contents file.mode) := by
  rw [item?_eq_bind_node?, h.node]
  simp [Node.item?, itemOfLeaf?, h.file]

end LeadsTo

/-- A path leads to the file with this number. -/
def Names (fs : FileSystem) (walk : Walk) (path : Path) (id : FileId) : Prop :=
  ∃ goal, fs.resolve walk path = .ok goal ∧ fs.node? goal = some (.leaf (.file id))

/-- A path that names a file when it is read names it as well when it is resolved by names alone. -/
lemma Names.canonical (h : fs.Names .toFile path id) : fs.Names .canonical path id := by
  obtain ⟨goal, hgoal, hnode⟩ := h
  exact ⟨goal, resolve_canonical hgoal, hnode⟩

/-- A path of a file names no other one. -/
lemma LeadsTo.names_iff (h : fs.LeadsTo walk path goal id file) :
    fs.Names walk path id' ↔ id' = id := by
  constructor
  · rintro ⟨goal', hgoal', hnode⟩
    obtain rfl : goal = goal' := Except.ok.inj (h.resolve.symm.trans hgoal')
    simpa using hnode.symm.trans h.node
  · rintro rfl
    exact ⟨goal, h.resolve, h.node⟩

/-- A file is found where there is something with contents. -/
lemma exists_leadsTo_of_item? (hgoal : fs.resolve walk path = .ok goal)
    (hitem : fs.item? goal = some (.file contents mode)) :
    ∃ id, fs.LeadsTo walk path goal id ⟨contents, mode⟩ := by
  rw [item?_eq_bind_node?] at hitem
  rcases hnode : fs.node? goal with _ | (id | target) | m
  · simp [hnode] at hitem
  · refine ⟨id, hgoal, hnode, ?_⟩
    cases hfile : fs.files[id]? with
    | none => simp [hnode, Node.item?, itemOfLeaf?, hfile] at hitem
    | some file =>
      simp only [hnode, Option.bind_some, Node.item?, itemOfLeaf?, hfile, Option.map_some,
        Option.some.injEq, Item.file.injEq] at hitem
      rw [← hitem.1, ← hitem.2]
  · simp [hnode, Node.item?, itemOfLeaf?] at hitem
  · simp [hnode, Node.item?] at hitem

/-- A path is looked up in two steps: it is resolved to a place, and there has to be an entry at
this place. -/
lemma lookUp_eq_ok_iff {entry : Entry} :
    fs.lookUp walk path = .ok entry ↔
      ∃ goal, fs.resolve walk path = .ok goal ∧ fs.entry? goal = some entry := by
  unfold lookUp
  cases hgoal : fs.resolve walk path with
  | error e => simp
  | ok goal => cases hentry : fs.entry? goal <;> simp [hentry]

/-- **What reading a path finds** is what the file that it leads to holds.

**Proof sketch.** By what the look-up of the path finds, and for a file by whether it may be read.
-/
lemma read_eq_ok_iff :
    fs.read path = .ok contents ↔
      ∃ goal id file, fs.LeadsTo .toFile path goal id file ∧ file.mode.canRead = true ∧
        file.contents = contents := by
  constructor
  · intro h
    rw [read] at h
    cases hlook : fs.lookUp .toFile path with
    | error e => simp [hlook] at h
    | ok entry =>
      obtain ⟨goal, hgoal, hentry⟩ := lookUp_eq_ok_iff.mp hlook
      rcases entry with (id | target) | ⟨m, e⟩
      · cases hfile : fs.files[id]? with
        | none => simp [hlook, hfile] at h
        | some file =>
          simp only [hlook, hfile] at h
          split at h
          · rename_i hread
            exact ⟨goal, id, file, ⟨hgoal, node?_eq_leaf_iff.mpr hentry, hfile⟩, hread,
              Except.ok.inj h⟩
          · simp at h
      · simp [hlook] at h
      · simp [hlook] at h
  · rintro ⟨goal, id, file, h, hread, rfl⟩
    have hlook : fs.lookUp .toFile path = .ok (.leaf (.file id)) :=
      lookUp_eq_ok_iff.mpr ⟨goal, h.resolve, node?_eq_leaf_iff.mp h.node⟩
    rw [read, hlook]
    simp [h.file, hread]

/-- What reading a path finds, by what the place holds. -/
lemma read_eq_ok_iff_item? :
    fs.read path = .ok contents ↔
      ∃ goal mode, fs.resolve .toFile path = .ok goal ∧
        fs.item? goal = some (.file contents mode) ∧ mode.canRead = true := by
  constructor
  · intro h
    obtain ⟨goal, id, file, hleads, hread, rfl⟩ := read_eq_ok_iff.mp h
    exact ⟨goal, file.mode, hleads.resolve, hleads.item?, hread⟩
  · rintro ⟨goal, mode, hgoal, hitem, hread⟩
    obtain ⟨id, hleads⟩ := exists_leadsTo_of_item? hgoal hitem
    exact read_eq_ok_iff.mpr ⟨goal, id, _, hleads, hread, rfl⟩

/-- Whether a path leads to a link is a matter of shapes.

**Proof sketch.** By what the look-up of the path finds, with a link at its end not followed, and
then by the kinds of entries. -/
lemma isLink_eq_ok_iff {link : Bool} :
    fs.isLink path = .ok link ↔
      ∃ place shape, fs.resolve .toEntry path = .ok place ∧ fs.shape? place = some shape ∧
        shape.isLink = link := by
  unfold isLink
  cases hlook : fs.lookUp .toEntry path with
  | error e =>
    simp only [reduceCtorEq, false_iff, not_exists, not_and]
    intro place shape hplace hshape
    cases hentry : fs.entry? place with
    | none =>
      rw [shape?_eq_none_iff.mpr hentry] at hshape
      simp at hshape
    | some entry =>
      rw [lookUp_eq_ok_iff.mpr ⟨place, hplace, hentry⟩] at hlook
      simp at hlook
  | ok entry =>
    obtain ⟨place, hplace, hentry⟩ := lookUp_eq_ok_iff.mp hlook
    rcases entry with (id | target) | ⟨mode, entries⟩ <;>
      simp [hplace, shape?, node?, hentry, Entry.node, Node.shape, Shape.isLink]

/-- What is a link, and what is none, stays so in a tree that is kept. -/
lemma Keeps.isLink {fs' : FileSystem} (h : fs.Keeps fs') {link : Bool}
    (hlink : fs.isLink path = .ok link) : fs'.isLink path = .ok link := by
  obtain ⟨place, shape, hplace, hshape, hlink⟩ := isLink_eq_ok_iff.mp hlink
  exact isLink_eq_ok_iff.mpr ⟨place, shape, h.resolve hplace, h.shape place shape hshape, hlink⟩

/-- A path whose mode is found leads somewhere. -/
lemma exists_resolve_of_modeOf (h : fs.modeOf path = .ok mode) :
    ∃ goal, fs.resolve .toFile path = .ok goal := by
  rw [modeOf] at h
  cases hlook : fs.lookUp .toFile path with
  | error e => simp [hlook] at h
  | ok entry =>
    obtain ⟨goal, hgoal, -⟩ := lookUp_eq_ok_iff.mp hlook
    exact ⟨goal, hgoal⟩

/-- The mode that is found for a path is the mode of the file that it leads to. -/
lemma LeadsTo.modeOf (h : fs.LeadsTo .toFile path goal id file) : fs.modeOf path = .ok file.mode := by
  have hlook : fs.lookUp .toFile path = .ok (.leaf (.file id)) :=
    lookUp_eq_ok_iff.mpr ⟨goal, h.resolve, node?_eq_leaf_iff.mp h.node⟩
  rw [FileSystem.modeOf, hlook]
  simp [h.file]

/-- The mode of a path is the mode of the file that it leads to. -/
lemma exists_leadsTo_of_modeOf (h : fs.modeOf path = .ok mode)
    (hgoal : fs.resolve .toFile path = .ok goal)
    (hnode : fs.node? goal = some (.leaf (.file id))) :
    ∃ file, fs.LeadsTo .toFile path goal id file ∧ file.mode = mode := by
  have hlook : fs.lookUp .toFile path = .ok (.leaf (.file id)) :=
    lookUp_eq_ok_iff.mpr ⟨goal, hgoal, node?_eq_leaf_iff.mp hnode⟩
  rw [modeOf, hlook] at h
  cases hfile : fs.files[id]? with
  | none => simp [hfile] at h
  | some file => exact ⟨file, ⟨hgoal, hnode, hfile⟩, by simpa [hfile] using h⟩

end Detab.FileSystem
