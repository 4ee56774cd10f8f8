import Detab.Proofs.FileSystem.Outlines
import Detab.Proofs.Replacement.Completing

set_option relaxedAutoImplicit false
set_option autoImplicit false

/-!
# The effect of a replacement

A replacement that succeeds puts a file of its own in the place of the file that its path leads to,
and does nothing else. Other names of the old file keep it, links and directories stay as they are,
and every path leads where it led.

The file is looked for in two ways. Behind a link it is the canonical path that is replaced, and for
that path dots are taken off the text. Who opens the given path takes the same dots in directories,
and may not be allowed to. So a file can be replaced through a link that it cannot be read through,
neither before nor afterwards.

## Main definitions

* `Detab.Replacement.Effect` — what a replacement has done, and what it has left alone.

## Main results

* `Detab.FileSystem.resolve_toFile_or` — what is found by names alone is found by the file system,
  unless it may not take a dot on the way.
* `Detab.Replacement.effect_of_overwrite` — overwriting a file has that effect.
* `Detab.Replacement.effect_of_replace` — **the effect of a replacement that succeeds.**
* `Detab.Replacement.replace_unreadable` — a file that is replaced through a link that it cannot be
  read through.
-/

namespace Detab

open Detab.Path

/-- The names of a directory are in its outline. -/
lemma Directory.names_outline (d : Directory) : d.outline.names = d.names := by
  induction d with
  | empty => rfl
  | leaf name l rest ih => rw [outline, names, names, ih]
  | sub name mode entries rest _ ih => rw [outline, names, names, ih]

namespace FileSystem

variable {fs fs' : FileSystem} {links left : Nat} {here goal place : Place} {mode : Mode}
  {entries : Directory} {rest : List Step} {path : Path}

/-! ## Names alone, and the file system -/

/-- A directory can be passed through, or it takes no dot. -/
lemma passable_or_closed (h : fs.Passable false here) :
    fs.Passable true here ∨ ∀ links step rest, step = .stay ∨ step = .up →
      walkFrom fs .toFile links here (step :: rest) = .error .permissionDenied := by
  obtain ⟨mode, hmode, -⟩ := h
  cases hsearch : mode.canSearch with
  | true => exact .inl ⟨mode, hmode, fun _ => hsearch⟩
  | false =>
    obtain ⟨entries, hentry⟩ := shape?_eq_directory_iff.mp hmode
    refine .inr ?_
    rintro links step rest (rfl | rfl) <;> simp [walkFrom_eq, takeSteps, hentry, hsearch, Walk.toFile]

/-- **The file system goes where names alone lead,** unless it may not take a dot on the way.

**Proof sketch.** Induction on the walk. Only a dot can be refused where it was not before, and then
the error is known. -/
lemma Walked.walkFrom_toFile_or {path : List Step} (h : Walked fs false links here path left goal) :
    walkFrom fs .toFile links here path = .ok goal ∨
      walkFrom fs .toFile links here path = .error .permissionDenied := by
  induction h with
  | done => exact .inl (walkFrom_nil _ _)
  | directory hpass _ ih => rwa [walkFrom_directory hpass]
  | stay hpass _ ih =>
    rcases passable_or_closed hpass with hopen | hclosed
    · rwa [walkFrom_stay hopen]
    · exact .inr (hclosed _ _ _ (.inl rfl))
  | up hpass _ ih =>
    rcases passable_or_closed hpass with hopen | hclosed
    · rwa [walkFrom_up hopen]
    · exact .inr (hclosed _ _ _ (.inr rfl))
  | name hpass hn hsolid _ ih => rwa [walkFrom_name hpass hn hsolid]
  | link hpass hn htarget _ ih => rwa [walkFrom_link hpass hn htarget (.inr rfl)]

/-- **What is found by names alone is found by the file system,** unless it may not take a dot on the
way. -/
lemma resolve_toFile_or (h : fs.resolve .canonical path = .ok goal) :
    fs.resolve .toFile path = .ok goal ∨ fs.resolve .toFile path = .error .permissionDenied := by
  obtain ⟨hspelling, left, hwalked⟩ := (resolve_eq_ok_iff rfl).mp h
  rw [resolve, hspelling]
  exact hwalked.walkFrom_toFile_or

/-- Directories of one outline have one mode and the same names. -/
lemma exists_entry?_of_outline (h : fs'.outline = fs.outline)
    (hentry : fs.entry? place = some (.directory mode entries)) :
    ∃ entries', fs'.entry? place = some (.directory mode entries') ∧
      entries'.names = entries.names := by
  have hsame : (fs'.entry? place).map Entry.outline = (fs.entry? place).map Entry.outline := by
    rw [← entry?_outline, h, entry?_outline]
  rw [hentry] at hsame
  obtain ⟨entry', hentry', heq⟩ := Option.map_eq_some_iff.mp hsame
  cases entry' with
  | leaf l => simp [Entry.outline] at heq
  | directory mode' entries' =>
    obtain ⟨rfl, hentries⟩ := Entry.directory.inj heq
    refine ⟨entries', hentry', ?_⟩
    rw [← Directory.names_outline, hentries, Directory.names_outline]

end FileSystem

namespace Replacement

open FileSystem

variable {fs fs' : FileSystem} {path destination temporary : Path} {goal parent : Place} {name : Name}
  {id : FileId} {old : File} {mode : Mode} {chunks : List ByteArray} {contents : ByteArray}
  {world world' : World}

/-- **What a replacement has done** to the file `old`, which has the number `id` and was at `goal`, and
what it has left alone. -/
structure Effect (fs : FileSystem) (goal : Place) (id : FileId) (old : File) (contents : ByteArray)
    (fs' : FileSystem) : Prop where
  /-- The place holds the new contents with the old mode. -/
  written : fs'.item? goal = some (.file contents old.mode)
  /-- What is there is a file that has no other name. -/
  own : ∃ new, fs'.node? goal = some (.leaf (.file new)) ∧
    ∀ place, fs'.node? place = some (.leaf (.file new)) → place = goal
  /-- Other names of the old file still stand for it. -/
  aliases : ∀ place, place ≠ goal → fs.node? place = some (.leaf (.file id)) →
    fs'.node? place = some (.leaf (.file id)) ∧
      fs'.item? place = some (.file old.contents old.mode)
  /-- Every link has its target. -/
  links : ∀ place target, fs.item? place = some (.link target) →
    fs'.item? place = some (.link target)
  /-- Every directory has its mode and its names. -/
  directories : ∀ place mode entries, fs.entry? place = some (.directory mode entries) →
    ∃ entries', fs'.entry? place = some (.directory mode entries') ∧ entries'.names = entries.names
  /-- Every other place holds what it held. -/
  others : ∀ place, place ≠ goal → fs'.item? place = fs.item? place
  /-- Every path leads where it led, or fails as it did. -/
  walks : ∀ walk other, fs'.resolve walk other = fs.resolve walk other

/-- **Overwriting a file has that effect.** The new file has a number that no place had.

**Proof sketch.** Clause by clause, from the nodes and items of the overwritten tree. The number of
the new file is that of no file before, so no other place has it; and the outline of the tree is the
same, so walks are. -/
lemma effect_of_overwrite (wf : fs.WellFormed)
    (hnode : fs.node? (parent ++ [name]) = some (.leaf (.file id)))
    (hfile : fs.files[id]? = some old) (contents : ByteArray) :
    Effect fs (parent ++ [name]) id old contents (fs.overwrite parent name ⟨contents, old.mode⟩) := by
  have hother : ∀ place, place ≠ parent ++ [name] →
      (fs.overwrite parent name ⟨contents, old.mode⟩).item? place = fs.item? place := by
    intro place hne
    rw [item?_overwrite hnode wf, if_neg hne]
  have hold : ∀ place, fs.node? place = some (.leaf (.file id)) →
      fs.item? place = some (.file old.contents old.mode) := by
    intro place hplace
    rw [item?_eq_bind_node?, hplace]
    simp [Node.item?, itemOfLeaf?, hfile]
  have houtline := outline_overwrite hnode ⟨contents, old.mode⟩
  refine ⟨?_, ⟨fs.files.length, ?_, ?_⟩, ?_, ?_, ?_, hother, ?_⟩
  · rw [item?_overwrite hnode wf, if_pos rfl]
  · rw [node?_overwrite hnode, if_pos rfl]
  · -- no place had the number of the new file before
    intro place hplace
    by_contra hne
    rw [node?_overwrite hnode, if_neg hne] at hplace
    exact absurd (wf.id_lt hplace) (Nat.lt_irrefl _)
  · intro place hne hplace
    rw [node?_overwrite hnode, if_neg hne, hother place hne]
    exact ⟨hplace, hold place hplace⟩
  · intro place target hplace
    rw [hother, hplace]
    rintro rfl
    simp [hold _ hnode] at hplace
  · intro place mode entries hentry
    exact exists_entry?_of_outline houtline hentry
  · intro walk other
    rw [← resolve_outline, houtline, resolve_outline]

/-- What is read afterwards is what was written. -/
lemma Effect.read (h : Effect fs goal id old contents fs')
    (hgoal : fs.resolve .toFile path = .ok goal) (hread : old.mode.canRead = true) :
    fs'.read path = .ok contents :=
  read_eq_ok_iff_item?.mpr ⟨goal, old.mode, (h.walks _ _).trans hgoal, h.written, hread⟩

/-- Where the path is no link, what is replaced is what the file system finds. -/
lemma resolve_toFile_of_isLink_false (h : destination? fs path = some destination)
    (hmode : fs.modeOf destination = .ok mode) (hlink : fs.isLink path = .ok false) :
    ∃ goal, fs.resolve .toFile path = .ok goal := by
  obtain rfl : path = destination := by simpa [destination?, hlink] using h
  exact exists_resolve_of_modeOf hmode

/-- What is to be replaced has been asked whether it is a link. -/
lemma exists_isLink_of_destination? (h : destination? fs path = some destination) :
    ∃ link, fs.isLink path = .ok link := by
  cases hlink : fs.isLink path with
  | error e => simp [destination?, hlink] at h
  | ok link => exact ⟨link, rfl⟩

/-- **The effect of a replacement that succeeds.** Let `goal` be where the path leads when all links
are followed. There is a file of its own, with the new contents and the old mode, and nothing else has
changed. Opening the path leads there again, and reads the new contents if the mode allows it. Only
where the path is a link, a dot behind it may have to be taken in a directory that cannot be passed
through; then it can be opened neither before nor afterwards.

**Proof sketch.** The renaming that has succeeded has overwritten the file, whose effect is known.
Walks are as before, so the path leads to the same place when it is opened, unless a dot behind a
link has to be taken in a directory that cannot be passed through. -/
theorem effect_of_replace (wf : world.fs.WellFormed)
    (h : (replace path chunks).run.run world = (.ok (), world')) :
    ∃ goal id old, world.fs.LeadsTo .canonical path goal id old ∧
      Effect world.fs goal id old (joined chunks) world'.fs ∧
      ((world'.fs.resolve .toFile path = .ok goal ∧
          (old.mode.canRead = true → world'.fs.read path = .ok (joined chunks))) ∨
        world.fs.isLink path = .ok true ∧
          world.fs.resolve .toFile path = .error .permissionDenied ∧
          world'.fs.resolve .toFile path = .error .permissionDenied) := by
  obtain ⟨destination, temporary, mode, hsucceeding⟩ := exists_succeeding_of_run h
  obtain ⟨dir, m, entries, t, room, hrename⟩ := hsucceeding.renamed
  obtain ⟨parent, name, id, old, hleads, hfs⟩ := replaced_of_rename wf hsucceeding.leads
    hsucceeding.chosen hsucceeding.hasMode room hrename
  have heffect : Effect world.fs (parent ++ [name]) id old (joined chunks) world'.fs := by
    rw [hfs]
    exact effect_of_overwrite wf hleads.node hleads.file (joined chunks)
  refine ⟨parent ++ [name], id, old, hleads, heffect, ?_⟩
  rw [heffect.walks]
  rcases resolve_toFile_or hleads.resolve with hopened | hclosed
  · exact .inl ⟨hopened, heffect.read hopened⟩
  · obtain ⟨link, hlink⟩ := exists_isLink_of_destination? hsucceeding.leads
    cases link with
    | true => exact .inr ⟨hlink, hclosed, hclosed⟩
    | false =>
      obtain ⟨goal, hgoal⟩ := resolve_toFile_of_isLink_false hsucceeding.leads hsucceeding.hasMode hlink
      exact absurd (hclosed.symm.trans hgoal) (by simp)

/-- A replacement through a symbolic link: the link is read as before, and the hard link keeps the old
file. -/
theorem effect_of_replace_link :
    let world : World := ⟨aliased ⟨pack [9], 0o600⟩, .start 7 (fun n => n) none⟩
    let world' := ((replace (utf8 "d/b.java") [pack [32], pack [32]]).run.run world).2
    world'.fs.item? [utf8 "d", utf8 "c"] = some (.file (pack [9]) 0o600) ∧
      world'.fs.item? [utf8 "d", utf8 "b.java"] = some (.link (utf8 "a.java")) ∧
      world'.fs.read (utf8 "d/b.java") = .ok (joined [pack [32], pack [32]]) := by
  intro world world'
  have hok : ((replace (utf8 "d/b.java") [pack [32], pack [32]]).run.run world).1 = .ok () := by
    decide +kernel
  have hrun : (replace (utf8 "d/b.java") [pack [32], pack [32]]).run.run world = (.ok (), world') :=
    Prod.ext hok rfl
  obtain ⟨goal, id, old, hleads, heffect, hread⟩ :=
    effect_of_replace (wellFormed_aliased ⟨pack [9], 0o600⟩) hrun
  have hplace : world.fs.LeadsTo .canonical (utf8 "d/b.java") [utf8 "d", utf8 "a.java"] 0
      ⟨pack [9], 0o600⟩ := ⟨by decide +kernel, by decide +kernel, rfl⟩
  obtain ⟨rfl, rfl, rfl⟩ := hleads.unique hplace
  refine ⟨?_, ?_, ?_⟩
  · exact (heffect.aliases [utf8 "d", utf8 "c"] (by decide +kernel) (by decide +kernel)).2
  · exact heffect.links _ _ (by decide +kernel)
  · have hopened : world.fs.resolve .toFile (utf8 "d/b.java") = .ok [utf8 "d", utf8 "a.java"] := by
      decide +kernel
    rcases hread with ⟨-, hread⟩ | ⟨-, hclosed, -⟩
    · exact hread (by decide +kernel)
    · exact absurd (hopened.symm.trans hclosed) (by simp)

/-- A file `f`, a directory `d` that cannot be passed through, and a link to the file by way of the
directory. -/
def detour : FileSystem where
  rootMode := .newDirectory
  root :=
    .sub (utf8 "d") 0o600 .empty
      (.leaf (utf8 "f") (.file 0) (.leaf (utf8 "l") (.link (utf8 "d/../f")) .empty))
  files := [⟨pack (utf8 "old"), 0o644⟩]
  workingDirectory := []

/-- **A file that is replaced through a link that it cannot be read through.** The canonical path takes
the dots off the text; the file system takes them in `d`. -/
theorem replace_unreadable :
    let world : World := ⟨detour, .start 7 (fun n => n) none⟩
    let run := (replace (utf8 "l") [pack (utf8 "new")]).run.run world
    world.fs.WellFormed ∧ world.fs.entry? [temporaryName world.session.stamp.1 (utf8 "f")] = none ∧
      world.fs.resolve .canonical (utf8 "l") = .ok [utf8 "f"] ∧ run.1 = .ok () ∧
      run.2.fs.item? [utf8 "f"] = some (.file (pack (utf8 "new")) 0o644) ∧
      (0o644 : Mode).canRead = true ∧
      run.2.fs.read (utf8 "l") = .error .permissionDenied := by
  have hroot : detour.root.WellFormed 1 := by decide +kernel
  refine ⟨⟨hroot, .newDirectory, rfl⟩, ?_, ?_, ?_, ?_, ?_, ?_⟩ <;> decide +kernel

end Replacement

end Detab
