import Detab.Proofs.Conversion.Aborting
import Detab.Proofs.Listing.Stability
import Detab.Proofs.Replacement.Completing
import Mathlib.Data.Finset.Card

set_option relaxedAutoImplicit false
set_option autoImplicit false

/-!
# Conversions that are repeated

A conversion that has succeeded is repeated without effect. One that was cut short, because the
output accepted no more, is taken up by another one: that one finds the files that were converted
without tabs, converts the others, and ends as one conversion would have ended.

## Main definitions

* `Detab.Conversion.Succeeds`, `Detab.Conversion.SucceedsAll` — what a conversion of one file, or of
  some files, makes of a tree if it succeeds.
* `Detab.Conversion.AtEachChoice` — what is so whenever a temporary path is chosen.

## Main results

* `Detab.Conversion.SucceedsAll.run_convertEach_or`, `Detab.Conversion.SucceedsAll.run_convertEach` — **a
  conversion that succeeds for one process succeeds for any other,** unless a temporary path is too long.
* `Detab.Conversion.SucceedsAll.again` — what was converted is converted again without effect.
* `Detab.Conversion.SucceedsAll.exists_touched` — the count of a conversion is the number of places
  that it has changed.
* `Detab.Conversion.convert_resumed` — **repeating a conversion, and taking up one that was cut
  short.**
* `Detab.Conversion.convert_not_resumed` — **it cannot be taken up by any process,** however free the
  temporary names are.

## Design

Runs of different processes are compared by the trees alone. What a conversion makes of a tree is
the same whichever process it is, so the conversions of two runs can be put one behind the other.
-/

namespace Detab

namespace Conversion

open FileSystem Replacement Expansion

variable {platform : Platform} {width : Width} {path : Path} {paths : List Path} {count : Nat}
  {fs fs' fs'' : FileSystem} {session : Session} {world world' w w' : World} {modified : Bool}

/-! ## One file -/

/-- **What a conversion of a file makes of a tree,** if it succeeds for some process. -/
def Succeeds (platform : Platform) (width : Width) (fs : FileSystem) (path : Path) (modified : Bool)
    (fs' : FileSystem) : Prop :=
  ∃ session session', (convertFile platform path width).run.run ⟨fs, session⟩ =
    (.ok modified, ⟨fs', session'⟩)

/-- A file in which there is a tab can be read at the path. -/
def HasTab (fs : FileSystem) (path : Path) : Prop :=
  ∃ contents, fs.read path = .ok contents ∧ tab ∈ unpack contents

/-- Whether there is a tab is found out by reading. -/
instance (fs : FileSystem) (path : Path) : Decidable (HasTab fs path) :=
  match h : fs.read path with
  | .error e => isFalse fun ⟨contents, hread, _⟩ => by simp [h] at hread
  | .ok contents => decidable_of_iff (tab ∈ unpack contents) (by simp [HasTab, h])

/-- A conversion that succeeds for some process does to the tree what a conversion does. -/
lemma Succeeds.converted (wf : fs.WellFormed) (h : Succeeds platform width fs path modified fs') :
    Converted width fs path modified fs' := by
  obtain ⟨session, session', hrun⟩ := h
  exact converted_of_run wf hrun

/-- The run of a conversion, by the contents that are read.

**Proof sketch.** The first request reads the contents. What comes next is decided by their
expansion, in three cases. -/
lemma run_convertFile {contents : ByteArray} (platform : Platform) (width : Width)
    (hread : fs.read path = .ok contents) (session : Session) :
    (convertFile platform path width).run.run ⟨fs, session⟩ =
      match expand platform.canReserve contents width with
      | .error cause => (.error (.converting path cause), ⟨fs, session⟩)
      | .ok none =>
        (.ok false, ⟨fs, session.addLine ⟨.debug, s!"No tabs in {Utf8.display path}"⟩⟩)
      | .ok (some expanded) =>
        let ended := (replace path (platform.chunks expanded)).run.run ⟨fs, session⟩
        ((ended.1.mapError (.replacing path)).map fun _ => true, ended.2) := by
  have hfirst := Action.run_read (Error.reading path) path ⟨fs, session⟩
  rw [hread] at hfirst
  refine (Action.run_bind_of_ok hfirst).trans ?_
  rcases expand platform.canReserve contents width with cause | _ | expanded
  · rfl
  · rfl
  · dsimp only
    rw [Action.run_bind, Action.run_ofScript]
    rcases (replace path (platform.chunks expanded)).run.run ⟨fs, session⟩ with ⟨_ | _, _⟩ <;> rfl

/-- A file without tabs is left alone. -/
lemma exists_run_convertFile_of_notMem {contents : ByteArray} (platform : Platform) (width : Width)
    (hread : fs.read path = .ok contents) (htab : tab ∉ unpack contents) (session : Session) :
    ∃ session', (convertFile platform path width).run.run ⟨fs, session⟩ =
      (.ok false, ⟨fs, session'⟩) := by
  rw [run_convertFile platform width hread,
    (expand_eq_none_iff platform.canReserve contents width).mpr htab]
  exact ⟨_, rfl⟩

/-- **A conversion of a file that succeeds for one process succeeds for any other** whose temporary path
is free, if it chooses one, and leaves the same tree, unless that path is too long. Then it fails, and
changes nothing.

**Proof sketch.** By what the expansion of the contents gives. Only with a tab does the process
count, and then a replacement that succeeds for one process does so for another, by
`run_replace_of_free`, if the path of the other one is not too long. -/
lemma Succeeds.exists_run_or (wf : fs.WellFormed) (h : Succeeds platform width fs path modified fs')
    (hfree : HasTab fs path → Free ⟨fs, session⟩ path) :
    (∃ session', (convertFile platform path width).run.run ⟨fs, session⟩ =
      (.ok modified, ⟨fs', session'⟩)) ∨
    (HasTab fs path ∧ ¬ TemporaryFits fs session.stamp.1 path ∧ ∃ e session',
      (convertFile platform path width).run.run ⟨fs, session⟩ = (.error e, ⟨fs, session'⟩)) := by
  obtain ⟨contents, hread⟩ := (h.converted wf).exists_read
  obtain ⟨session₀, session₁, h⟩ := h
  rw [run_convertFile platform width hread] at h ⊢
  rcases hexpand : expand platform.canReserve contents width with cause | _ | expanded
  · simp [hexpand] at h
  · simp only [hexpand, Prod.mk.injEq, World.mk.injEq] at h ⊢
    obtain ⟨hresult, rfl, -⟩ := h
    exact .inl ⟨_, hresult, rfl, rfl⟩
  · have htab : HasTab fs path := ⟨contents, hread, (expand_eq_some hexpand).1⟩
    simp only [hexpand] at h ⊢
    rcases hreplace : (replace path (platform.chunks expanded)).run.run ⟨fs, session₀⟩ with
      ⟨e | _, world⟩
    · simp [hreplace, Except.mapError, Except.map] at h
    · rw [hreplace] at h
      obtain ⟨hresult, rfl⟩ := Prod.mk.inj h
      -- the replacement has succeeded once, so only the length of the path can stop it
      rcases run_replace_of_free wf hreplace (hfree htab) with
        hother | ⟨temporary, hchosen, hlong, hother⟩
      · exact .inl ⟨session.stamp.2, by rw [hother]; exact Prod.ext hresult rfl⟩
      · exact .inr ⟨htab, fun hfits => hlong (hfits temporary hchosen), _, _, by rw [hother]; rfl⟩

/-- After a conversion a file reads as its expansion. -/
lemma Converted.read_after {contents : ByteArray} (wf : fs.WellFormed)
    (h : Converted width fs path modified fs') (hread : fs.read path = .ok contents) :
    fs'.read path = .ok (expanded width contents) := by
  have hexpands := h.expands wf
  obtain ⟨place, mode, hplace, hitem, hmode⟩ := read_eq_ok_iff_item?.mp hread
  refine read_eq_ok_iff_item?.mpr
    ⟨place, mode, (hexpands.resolve_iff path place).mpr hplace, ?_, hmode⟩
  rw [hexpands.item_of_reached place ⟨path, by simp, hplace⟩, hitem]
  rfl

/-- After a conversion a file reads without tabs. -/
lemma Converted.exists_read_after (wf : fs.WellFormed) (h : Converted width fs path modified fs') :
    ∃ contents, fs'.read path = .ok contents ∧ tab ∉ unpack contents := by
  obtain ⟨contents, hread⟩ := h.exists_read
  exact ⟨expanded width contents, h.read_after wf hread, tab_notMem_expanded width contents⟩

/-- What a conversion makes of a tree is determined by the tree.

**Proof sketch.** The file that the path leads to is the same, so it has a tab in both cases or in
neither, and is kept or rewritten in the same way. -/
lemma Converted.unique {modified' : Bool} (h : Converted width fs path modified fs')
    (h' : Converted width fs path modified' fs'') : modified = modified' ∧ fs' = fs'' := by
  cases h with
  | kept hleads _ htab =>
    cases h' with
    | kept => exact ⟨rfl, rfl⟩
    | rewritten hleads' _ htab' =>
      obtain ⟨-, -, rfl⟩ := hleads.unique hleads'
      exact absurd htab' htab
  | rewritten hleads _ htab =>
    cases h' with
    | kept hleads' _ htab' =>
      obtain ⟨-, -, rfl⟩ := hleads.unique hleads'
      exact absurd htab htab'
    | rewritten hleads' _ _ =>
      obtain ⟨hplace, -, rfl⟩ := hleads.unique hleads'
      obtain ⟨rfl, hname⟩ := List.append_inj' hplace rfl
      obtain rfl : _ = _ := List.singleton_injective hname
      exact ⟨rfl, rfl⟩

/-! ## Some files, one after the other -/

/-- **What a conversion of some files makes of a tree,** if it succeeds: each of the conversions
succeeds in the tree that the ones before it have made. -/
inductive SucceedsAll (platform : Platform) (width : Width) :
    FileSystem → List Path → (count : Nat) → FileSystem → Prop
  | nil (fs : FileSystem) : SucceedsAll platform width fs [] 0 fs
  | cons {fs fs' fs'' : FileSystem} {path : Path} {rest : List Path} {modified : Bool}
      {others : Nat} : Succeeds platform width fs path modified fs' →
        SucceedsAll platform width fs' rest others fs'' →
          SucceedsAll platform width fs (path :: rest) (others + modified.toNat) fs''

/-- **What is so at each choice of a temporary path,** while some files are converted: at each file with
a tab, in the world that the conversions before it have made. Nothing is asked of the files behind one
that cannot be converted. -/
def AtEachChoice (choice : World → Path → Prop) (platform : Platform) (width : Width) :
    List Path → World → Prop
  | [], _ => True
  | path :: rest, world =>
    (HasTab world.fs path → choice world path) ∧
      ∀ modified world', (convertFile platform path width).run.run world = (.ok modified, world') →
        AtEachChoice choice platform width rest world'

/-- What is so at each choice is found out by converting the files. -/
instance decidableAtEachChoice (choice : World → Path → Prop)
    [∀ world path, Decidable (choice world path)] (platform : Platform) (width : Width) :
    (paths : List Path) → (world : World) → Decidable (AtEachChoice choice platform width paths world)
  | [], _ => isTrue trivial
  | path :: rest, world =>
    let ended := (convertFile platform path width).run.run world
    have := decidableAtEachChoice choice platform width rest ended.2
    decidable_of_iff ((HasTab world.fs path → choice world path) ∧
        (ended.1.isOk = true → AtEachChoice choice platform width rest ended.2))
      (and_congr_right fun _ => ⟨fun h modified world' hrun => by
        have hended : ended = (.ok modified, world') := hrun
        rw [hended] at h
        exact h rfl, fun h hok => by
        obtain ⟨modified, hmodified⟩ : ∃ modified, ended.1 = .ok modified := by
          cases hended : ended.1 with
          | error e => simp [hended, Except.isOk, Except.toBool] at hok
          | ok modified => exact ⟨modified, rfl⟩
        exact h modified ended.2 (Prod.ext hmodified rfl)⟩)

namespace SucceedsAll

/-- A file without tabs stays as it is. -/
lemma item?_of_expands {reached : Place → Prop} (h : Expands width reached fs fs') {place : Place}
    {contents : ByteArray} {mode : Mode} (hitem : fs.item? place = some (.file contents mode))
    (htab : tab ∉ unpack contents) : fs'.item? place = some (.file contents mode) := by
  by_cases hreached : reached place
  · rw [h.item_of_reached place hreached, hitem]
    simp only [Option.map_some, expandItem, expanded_of_notMem htab]
  · rw [h.item_of_not place hreached, hitem]

/-- **The files are expanded** at all places that the paths lead to, whatever their order. -/
lemma expands (wf : fs.WellFormed) (h : SucceedsAll platform width fs paths count fs') :
    Expands width (Reached fs paths) fs fs' := by
  induction h with
  | nil fs => exact expands_nil wf
  | cons hfile _ ih =>
    have hfirst := (hfile.converted wf).expands wf
    exact hfirst.append (ih hfirst.wellFormed)

/-- A target stands for the same paths afterwards. -/
lemma matched_eq (wf : fs.WellFormed) (h : SucceedsAll platform width fs paths count fs')
    (pattern : Pattern) (target : Path) : matched fs' pattern target = matched fs pattern target :=
  have hexpands := h.expands wf
  matched_of_keeps wf hexpands.wellFormed hexpands.keeps hexpands.kept pattern target

/-- **The outcome of several conversions is determined by the tree:** whichever processes carry them
out, they count the same files and make the same tree. -/
lemma unique {count' : Nat} (wf : fs.WellFormed)
    (h : SucceedsAll platform width fs paths count fs')
    (h' : SucceedsAll platform width fs paths count' fs'') : count = count' ∧ fs' = fs'' := by
  induction h generalizing count' with
  | nil fs =>
    cases h'
    exact ⟨rfl, rfl⟩
  | cons hfile _ ih =>
    cases h' with
    | cons hfile' hrest' =>
      have hconverted := hfile.converted wf
      obtain ⟨rfl, rfl⟩ := hconverted.unique (hfile'.converted wf)
      obtain ⟨rfl, rfl⟩ := ih (hconverted.expands wf).wellFormed hrest'
      exact ⟨rfl, rfl⟩

/-- The conversions of some files and of others, one behind the other. -/
lemma append {paths' : List Path} {count' : Nat}
    (h : SucceedsAll platform width fs paths count fs')
    (h' : SucceedsAll platform width fs' paths' count' fs'') :
    SucceedsAll platform width fs (paths ++ paths') (count' + count) fs'' := by
  induction h with
  | nil fs => exact h'
  | cons hfile _ ih =>
    rw [List.cons_append, ← Nat.add_assoc]
    exact .cons hfile (ih h')

/-- A conversion can be cut anywhere. -/
lemma exists_of_append (before after : List Path)
    (h : SucceedsAll platform width fs (before ++ after) count fs') :
    ∃ mid first second, SucceedsAll platform width fs before first mid ∧
      SucceedsAll platform width mid after second fs' ∧ count = second + first := by
  induction before generalizing fs count with
  | nil => exact ⟨fs, 0, count, .nil fs, h, rfl⟩
  | cons path before ih =>
    cases h with
    | cons hfile hrest =>
      obtain ⟨mid, first, second, hbefore, hafter, rfl⟩ := ih hrest
      exact ⟨mid, _, second, .cons hfile hbefore, hafter, by omega⟩

/-- **After a conversion all files read without tabs.**

**Proof sketch.** Induction on the conversions. A file that was just converted has no tab; what
comes later may expand its place again, which changes nothing without a tab. -/
lemma exists_read (wf : fs.WellFormed) (h : SucceedsAll platform width fs paths count fs') :
    ∀ path ∈ paths, ∃ contents, fs'.read path = .ok contents ∧ tab ∉ unpack contents := by
  induction h with
  | nil fs => simp
  | @cons fs fs' fs'' path rest modified others hfile hrest ih =>
    have hconverted := hfile.converted wf
    have wf' := (hconverted.expands wf).wellFormed
    intro path' hpath'
    rcases List.mem_cons.mp hpath' with rfl | hpath'
    · obtain ⟨contents, hread, htab⟩ := hconverted.exists_read_after wf
      obtain ⟨place, mode, hplace, hitem, hmode⟩ := read_eq_ok_iff_item?.mp hread
      have hexpands := hrest.expands wf'
      exact ⟨contents, read_eq_ok_iff_item?.mpr ⟨place, mode,
        (hexpands.resolve_iff path' place).mpr hplace, item?_of_expands hexpands hitem htab,
        hmode⟩, htab⟩
    · exact ih wf' path' hpath'

/-- Files without tabs are converted without effect. -/
lemma of_notMem (platform : Platform) (width : Width)
    (h : ∀ path ∈ paths, ∃ contents, fs.read path = .ok contents ∧ tab ∉ unpack contents) :
    SucceedsAll platform width fs paths 0 fs := by
  induction paths with
  | nil => exact .nil fs
  | cons path rest ih =>
    obtain ⟨contents, hread, htab⟩ := h path (by simp)
    obtain ⟨session', hrun⟩ := exists_run_convertFile_of_notMem platform width hread htab
      (.start 0 (fun n => n) none)
    exact .cons ⟨_, session', hrun⟩ (ih fun path' hpath' => h path' (by simp [hpath']))

/-- **What was converted is converted again without effect,** also when the width is another one. -/
lemma again (wf : fs.WellFormed) (h : SucceedsAll platform width fs paths count fs')
    (width' : Width) : SucceedsAll platform width' fs' paths 0 fs' :=
  of_notMem platform width' (h.exists_read wf)

/-- **The count of a conversion is the number of places that it has changed.**

**Proof sketch.** Induction on the files. A conversion that finds a tab changes one place, and there
is no tab at that place any more, so none of the others changes it again. -/
lemma exists_touched (wf : fs.WellFormed) (h : SucceedsAll platform width fs paths count fs') :
    ∃ touched : Finset Place,
      (∀ place, place ∈ touched ↔ fs'.item? place ≠ fs.item? place) ∧ touched.card = count := by
  induction h with
  | nil fs => exact ⟨∅, by simp, rfl⟩
  | @cons fs fs' fs'' path rest modified others hfile hrest ih =>
    have hconverted := hfile.converted wf
    have wf' := (hconverted.expands wf).wellFormed
    obtain ⟨touched, htouched, hcard⟩ := ih wf'
    have hexpands := hrest.expands wf'
    cases hconverted with
    | kept => exact ⟨touched, htouched, hcard⟩
    | @rewritten parent name id file hleads _ htab =>
      have hitem : fs.item? (parent ++ [name]) = some (.file file.contents file.mode) := hleads.item?
      have hafter := item?_overwrite hleads.node wf ⟨expanded width file.contents, file.mode⟩
      have hdone : fs''.item? (parent ++ [name]) =
          some (.file (expanded width file.contents) file.mode) := by
        refine item?_of_expands hexpands ?_ (tab_notMem_expanded width file.contents)
        rw [hafter, if_pos rfl]
      have hnew : parent ++ [name] ∉ touched := by
        rw [htouched, hdone, hafter, if_pos rfl]
        exact not_not_intro rfl
      refine ⟨insert (parent ++ [name]) touched, fun place => ?_, ?_⟩
      · rw [Finset.mem_insert, htouched, hafter]
        by_cases hplace : place = parent ++ [name]
        · subst hplace
          refine iff_of_true (.inl rfl) fun hsame => ?_
          rw [hdone, hitem] at hsame
          refine tab_notMem_expanded width file.contents ?_
          rwa [(Item.file.inj (Option.some.inj hsame)).1]
        · rw [if_neg hplace, or_iff_right hplace]
      · rw [Finset.card_insert_of_notMem hnew, hcard]
        rfl

/-- **A conversion that succeeds for one process succeeds for any other** whose temporary paths are free,
and leaves the same tree, or it is stopped at a file for which that path is too long. Then the files
before that one have been converted, and nothing else.

**Proof sketch.** Induction on the conversions that succeed. The next file is converted by the other
process as well, or its temporary path is too long; then the files before it are those that were
converted. -/
lemma run_convertEach_or (wf : fs.WellFormed) (h : SucceedsAll platform width fs paths count fs')
    (hfree : AtEachChoice Free platform width paths ⟨fs, session⟩) :
    (∃ session', (convertEach platform width paths).run.run ⟨fs, session⟩ =
      (.ok (), ⟨fs', session'⟩)) ∨
    ∃ before path first world e session',
      FirstFailure platform width ⟨fs, session⟩ paths before path world e ∧
      SucceedsAll platform width fs before first world.fs ∧
      (convertFile platform path width).run.run world = (.error e, ⟨world.fs, session'⟩) := by
  induction h generalizing session with
  | nil fs => exact .inl ⟨session, rfl⟩
  | @cons fs fs' fs'' path rest modified others hfile _ ih =>
    rcases hfile.exists_run_or wf hfree.1 with ⟨session₁, hrun⟩ | ⟨-, -, e, session₁, hrun⟩
    · have hgo : ∀ paths, (convertEach platform width (path :: paths)).run.run ⟨fs, session⟩ =
          (convertEach platform width paths).run.run ⟨fs', session₁⟩ :=
        fun paths => Action.run_bind_of_ok hrun
      rcases ih ((hfile.converted wf).expands wf).wellFormed (hfree.2 _ _ hrun) with
        ⟨session', hrest⟩ | ⟨before, path', first, world, e, session', hfirst, hsucceeds, hfails⟩
      · exact .inl ⟨session', by rw [hgo, hrest]⟩
      · obtain ⟨⟨after, rfl⟩, hbefore, herror⟩ := hfirst
        exact .inr ⟨path :: before, path', _, world, e, session',
          ⟨⟨after, rfl⟩, by rw [hgo, hbefore], herror⟩, .cons hfile hsucceeds, hfails⟩
    · exact .inr ⟨[], path, 0, ⟨fs, session⟩, e, session₁, ⟨⟨rest, rfl⟩, rfl, by rw [hrun]⟩, .nil fs,
        hrun⟩

/-- **Within the limits it succeeds.** -/
lemma run_convertEach (wf : fs.WellFormed) (h : SucceedsAll platform width fs paths count fs')
    (hfree : AtEachChoice Unhindered platform width paths ⟨fs, session⟩) :
    ∃ session', (convertEach platform width paths).run.run ⟨fs, session⟩ =
      (.ok (), ⟨fs', session'⟩) := by
  induction h generalizing session with
  | nil fs => exact ⟨session, rfl⟩
  | cons hfile _ ih =>
    rcases hfile.exists_run_or wf fun htab => (hfree.1 htab).1 with
      ⟨session₁, hrun⟩ | ⟨htab, hlong, -⟩
    · obtain ⟨session', hrest⟩ :=
        ih ((hfile.converted wf).expands wf).wellFormed (hfree.2 _ _ hrun)
      exact ⟨session', (Action.run_bind_of_ok hrun).trans hrest⟩
    · exact absurd (hfree.1 htab).2 hlong

end SucceedsAll

/-- Where no file has a tab, no temporary path is chosen. -/
lemma atEachChoice_of_notMem (choice : World → Path → Prop) (platform : Platform) (width : Width)
    (h : ∀ path ∈ paths, ∃ contents, fs.read path = .ok contents ∧ tab ∉ unpack contents)
    (session : Session) : AtEachChoice choice platform width paths ⟨fs, session⟩ := by
  induction paths generalizing session with
  | nil => trivial
  | cons path rest ih =>
    obtain ⟨contents, hread, htab⟩ := h path (by simp)
    obtain ⟨session₁, hrun⟩ :=
      exists_run_convertFile_of_notMem platform width hread htab session
    refine ⟨fun ⟨contents', hread', htab'⟩ => ?_, fun modified world' hrun' => ?_⟩
    · obtain rfl : contents' = contents := Except.ok.inj (hread'.symm.trans hread)
      exact absurd htab' htab
    · obtain ⟨-, rfl⟩ := Prod.mk.inj (hrun.symm.trans hrun')
      exact ih (fun path' hpath' => h path' (by simp [hpath'])) session₁

/-- Files that are converted one after the other, by the trees. -/
lemma succeedsAll_of_convertEach
    (h : (convertEach platform width paths).run.run world = (.ok (), world')) :
    ∃ count, SucceedsAll platform width world.fs paths count world'.fs := by
  induction paths generalizing world with
  | nil =>
    obtain ⟨-, rfl⟩ := Prod.mk.inj h
    exact ⟨0, .nil _⟩
  | cons path rest ih =>
    obtain ⟨modified, world₁, hfile, hrest⟩ := Action.run_bind_eq_ok h
    obtain ⟨others, hothers⟩ := ih hrest
    exact ⟨_, .cons ⟨_, _, hfile⟩ hothers⟩

/-! ## With announcements -/

/-- A conversion that has succeeded, by the trees and by what it has written. -/
lemma succeedsAll_of_convertAll
    (h : (convertAll platform width paths).run.run world = (.ok count, world')) :
    SucceedsAll platform width world.fs paths count world'.fs ∧
      world'.session.written = world.session.written ++ paths.flatMap notice := by
  induction paths generalizing world count with
  | nil =>
    obtain ⟨hcount, rfl⟩ := Prod.mk.inj h
    obtain rfl : 0 = count := Except.ok.inj hcount
    exact ⟨.nil _, by simp⟩
  | cons path rest ih =>
    obtain ⟨modified, world₁, others, hfile, hrest, rfl⟩ := exists_of_convertAll_cons h
    obtain ⟨hothers, hwritten⟩ := ih hrest
    refine ⟨.cons ⟨_, _, hfile⟩ hothers, ?_⟩
    rw [hwritten, (written_of_run hfile).1, announced, List.flatMap_cons, List.append_assoc]

/-- An output that has room for all announcements changes nothing for the conversions. -/
lemma exists_run_convertAll (halike : w.Alike world)
    (haccepts : world.session.Accepts (paths.flatMap notice))
    (h : (convertEach platform width paths).run.run w = (.ok (), w')) :
    ∃ count world', (convertAll platform width paths).run.run world = (.ok count, world') ∧
      w'.fs = world'.fs := by
  obtain ⟨count, world', hafter, happend⟩ := run_convertAll_append halike haccepts h
  have hrun := happend []
  rw [List.append_nil] at hrun
  exact ⟨_, world', hrun, hafter.alike.fs.symm⟩

/-! ## The whole conversion -/

/-- A conversion of a target that has succeeded, by the trees and by what it has written. -/
lemma succeedsAll_of_convert {config : Config} {target : Path} {summary : Summary}
    (h : (convert platform config target).run.run world = (.ok summary, world')) :
    let paths := matched world.fs config.pattern target
    summary.matched = paths.length ∧
      SucceedsAll platform config.width world.fs paths summary.modified world'.fs ∧
      world'.session.written = world.session.written ++ paths.flatMap notice := by
  obtain ⟨log, hconvert⟩ := exists_run_convert platform config target world
  rcases hall : (convertAll platform config.width
      (matched world.fs config.pattern target)).run.run
        ⟨world.fs, { world.session with log := log }⟩ with ⟨e | count, world₁⟩
  · obtain ⟨log', hrun⟩ := hconvert _ _ hall
    simp [h, Except.map] at hrun
  · obtain ⟨log', hrun⟩ := hconvert _ _ hall
    obtain ⟨hsummary, rfl⟩ := Prod.mk.inj (h.symm.trans hrun)
    obtain rfl : summary = ⟨_, count⟩ := Except.ok.inj hsummary
    obtain ⟨hsucceeds, hwritten⟩ := succeedsAll_of_convertAll hall
    exact ⟨rfl, hsucceeds, hwritten⟩

/-- **A conversion of a target that succeeds for one process succeeds for any other** whose temporary
paths are free and within the limits, if its output has room.

**Proof sketch.** The loop without announcements succeeds by `SucceedsAll.run_convertEach`. With
room for the announcements the loop that prints them follows it, and its count and its tree are the
only ones possible. -/
lemma SucceedsAll.exists_run_convert (config : Config) (target : Path) (wf : fs.WellFormed)
    (hpaths : paths = matched fs config.pattern target)
    (h : SucceedsAll platform config.width fs paths count fs')
    (hfree : AtEachChoice Unhindered platform config.width paths ⟨fs, session⟩)
    (haccepts : session.Accepts (paths.flatMap notice)) :
    ∃ world', (convert platform config target).run.run ⟨fs, session⟩ =
        (.ok ⟨paths.length, count⟩, world') ∧
      world'.fs = fs' ∧ world'.session.written = session.written ++ paths.flatMap notice := by
  subst hpaths
  obtain ⟨log, hconvert⟩ := Conversion.exists_run_convert platform config target ⟨fs, session⟩
  obtain ⟨session', heach⟩ := h.run_convertEach wf hfree
  have halike : World.Alike ⟨fs, session⟩ ⟨fs, { session with log := log }⟩ :=
    ⟨rfl, rfl, rfl, rfl⟩
  have haccepts' : Session.Accepts { session with log := log }
      ((matched fs config.pattern target).flatMap notice) := haccepts
  obtain ⟨count', world₁, hall, hfs⟩ := exists_run_convertAll halike haccepts' heach
  obtain ⟨hsame, hwritten⟩ := succeedsAll_of_convertAll hall
  obtain ⟨rfl, -⟩ := h.unique wf hsame
  obtain ⟨log', hrun⟩ := hconvert _ _ hall
  exact ⟨_, hrun, hfs.symm, hwritten⟩

/-- **The tree after a conversion that was cut short,** where it would have succeeded otherwise: some of
the first files have been converted, and nothing else, whether it was the output that was full or a
temporary path that was too long.

**Proof sketch.** The files within the limit are converted by `run_convertEach_or`, or one of them
is the first to fail. In either case the loop that prints mirrors the one that does not, and ends in
the tree of the files before. -/
lemma SucceedsAll.exists_of_limit {config : Config} {target : Path} (wf : fs.WellFormed)
    (hpaths : paths = matched fs config.pattern target) {limit : Nat}
    (hlimit : session.limit = some limit) (hwritten : session.written = [])
    (h : SucceedsAll platform config.width fs paths count fs')
    (hfree : AtEachChoice Free platform config.width (paths.take (fitting limit paths)) ⟨fs, session⟩)
    {result : Except Error Summary}
    (hrun : (convert platform config target).run.run ⟨fs, session⟩ = (result, world')) :
    ∃ before after first, paths = before ++ after ∧
      SucceedsAll platform config.width fs before first world'.fs := by
  obtain ⟨log, hconvert⟩ := Conversion.exists_run_convert platform config target ⟨fs, session⟩
  rw [← hpaths] at hconvert
  have hmirrors : Mirrors limit [] ⟨fs, session⟩ ⟨fs, { session with log := log }⟩ :=
    ⟨⟨rfl, rfl, rfl, rfl⟩, hwritten, hlimit, Nat.zero_le _⟩
  rw [← List.take_append_drop (fitting limit paths) paths] at h
  obtain ⟨mid, counted, _, hcounted, -⟩ := SucceedsAll.exists_of_append _ _ h
  rcases hcounted.run_convertEach_or wf hfree with
    ⟨session', heach⟩ | ⟨before, path, first, world, e, session', hfirst, hsucceeds, hfails⟩
  · obtain ⟨ended, world₁, hall, -, hfs, -⟩ := hmirrors.convertAll_of_ok heach
    obtain ⟨log', hends⟩ := hconvert _ _ hall
    obtain ⟨-, rfl⟩ := Prod.mk.inj (hrun.symm.trans hends)
    have hfs : world₁.fs = mid := hfs
    exact ⟨_, _, counted, (List.take_append_drop _ _).symm, hfs ▸ hcounted⟩
  · obtain ⟨hfirst, hfits⟩ := hfirst.of_take
    obtain ⟨failed, world₁, hfile, hall, hmirrors'⟩ :=
      hmirrors.convertAll_of_firstFailure hfirst hfits
    obtain ⟨log', hends⟩ := hconvert _ _ hall
    obtain ⟨-, rfl⟩ := Prod.mk.inj (hrun.symm.trans hends)
    obtain ⟨-, rfl⟩ := Prod.mk.inj (hfails.symm.trans hfile)
    obtain ⟨after, hcut⟩ := hfirst.place
    exact ⟨before, path :: after, first, hcut, hmirrors'.alike.fs ▸ hsucceeds⟩

/-- **Repeating a conversion, and taking up one that was cut short.** A conversion that has succeeded
succeeds again, with any width: it announces the same files, finds no tab in them, and leaves the
tree alone. Where a conversion would succeed, one whose output accepts `limit` bytes only, whatever
happens to it, and after it one whose output accepts everything, come to the same end: the tree is the
same, the second one has written the same, and both together have changed as many files. Which processes
these are, and when they run, makes no difference, as long as the temporary paths that they choose are
free, and those of the last one are not too long.

**Proof sketch.** The conversion that was cut short has converted some of the first files, and nothing
else, even if a temporary path was too long for it. The next one finds the same files, the first ones
without tabs, so it leaves the tree alone until it comes to the others; these it converts in the very
tree in which they would have been converted. -/
theorem convert_resumed (wf : fs.WellFormed) (platform : Platform) (config : Config)
    (target : Path) (hpaths : paths = matched fs config.pattern target) :
    (∀ session summary world',
      (convert platform config target).run.run ⟨fs, session⟩ = (.ok summary, world') →
        ∃ sent, world'.session.written = session.written ++ sent ∧
          ∀ width' session', session'.Accepts sent →
            ∃ world'', (convert platform { config with width := width' } target).run.run
                ⟨world'.fs, session'⟩ = (.ok ⟨summary.matched, 0⟩, world'') ∧
              world''.fs = world'.fs ∧
              world''.session.written = session'.written ++ sent) ∧
    ∀ process clock summary whole,
      (convert platform config target).run.run ⟨fs, .start process clock none⟩ =
        (.ok summary, whole) →
      ∀ process₁ clock₁ limit result first,
        AtEachChoice Free platform config.width (paths.take (fitting limit paths))
          ⟨fs, .start process₁ clock₁ (some limit)⟩ →
        (convert platform config target).run.run ⟨fs, .start process₁ clock₁ (some limit)⟩ =
          (result, first) →
      ∀ process₂ clock₂,
        AtEachChoice Unhindered platform config.width paths
          ⟨first.fs, .start process₂ clock₂ none⟩ →
        ∃ modified final,
          (convert platform config target).run.run ⟨first.fs, .start process₂ clock₂ none⟩ =
            (.ok ⟨summary.matched, modified⟩, final) ∧
          final.fs = whole.fs ∧ final.session.written = whole.session.written ∧
          ∃ touched touched' : Finset Place,
            (∀ place, place ∈ touched ↔ first.fs.item? place ≠ fs.item? place) ∧
            (∀ place, place ∈ touched' ↔ final.fs.item? place ≠ first.fs.item? place) ∧
            touched'.card = modified ∧ touched.card + touched'.card = summary.modified := by
  subst hpaths
  refine ⟨fun session summary world' h => ?_, fun process clock summary whole hwhole => ?_⟩
  · obtain ⟨hmatched, hsucceeds, hwritten⟩ := succeedsAll_of_convert h
    refine ⟨_, hwritten, fun width' session' haccepts => ?_⟩
    have hsame := (hsucceeds.matched_eq wf config.pattern target).symm
    have hagain := SucceedsAll.exists_run_convert { config with width := width' } target
      (hsucceeds.expands wf).wellFormed hsame (hsucceeds.again wf width')
      (atEachChoice_of_notMem _ platform width' (hsucceeds.exists_read wf) session') haccepts
    rwa [hmatched]
  · intro process₁ clock₁ limit result first hfree₁ hfirst process₂ clock₂ hfree₂
    obtain ⟨hmatched, hsucceeds, hwritten⟩ := succeedsAll_of_convert hwhole
    set paths := matched fs config.pattern target with hpaths
    obtain ⟨before, after, count, hcut, hbefore⟩ :=
      hsucceeds.exists_of_limit wf hpaths rfl rfl hfree₁ hfirst
    obtain ⟨mid, count', others, hbefore', hafter, hcount⟩ :=
      SucceedsAll.exists_of_append before after (hcut ▸ hsucceeds)
    obtain ⟨rfl, rfl⟩ := hbefore.unique wf hbefore'
    have wf' := (hbefore.expands wf).wellFormed
    have hsame : paths = matched first.fs config.pattern target :=
      (hbefore.matched_eq wf config.pattern target).symm
    have hrest : SucceedsAll platform config.width first.fs paths others whole.fs := by
      have hboth := (hbefore.again wf config.width).append hafter
      rwa [← hcut, Nat.add_zero] at hboth
    obtain ⟨final, hrun, hfs, hfinal⟩ := hrest.exists_run_convert config target wf' hsame
      hfree₂
      (Session.accepts_of_limit_none rfl _)
    obtain ⟨touched, htouched, hcard⟩ := hbefore.exists_touched wf
    obtain ⟨touched', htouched', hcard'⟩ := hrest.exists_touched wf'
    refine ⟨others, final, hmatched ▸ hrun, hfs, hfinal.trans hwritten.symm, touched, touched',
      htouched, hfs ▸ htouched', hcard', ?_⟩
    rw [hcard, hcard', hcount, Nat.add_comm]

/-- Two files with tabs in a directory `d`. -/
def pair : FileSystem where
  rootMode := .newDirectory
  root :=
    .sub (utf8 "d") .newDirectory
      (.leaf (utf8 "a.java") (.file 0) (.leaf (utf8 "b.java") (.file 1) .empty)) .empty
  files := [⟨pack [9], 0o600⟩, ⟨pack [9, 9], 0o640⟩]
  workingDirectory := []

/-- The example tree with two files in one directory is well formed. -/
lemma wellFormed_pair : pair.WellFormed := by
  have hroot : pair.root.WellFormed 2 := by decide +kernel
  exact ⟨hroot, .newDirectory, rfl⟩

/-- A conversion of two files whose output is full within the second announcement, another process
that takes it up, and a third one that finds nothing to do. -/
theorem convert_resumed_pair :
    ∃ first final again,
      (convert .standard .standard (utf8 "d")).run.run
        ⟨pair, .start 8 (fun n => n + 5) (some 25)⟩ = (.error (.output .outputFull), first) ∧
      (convert .standard .standard (utf8 "d")).run.run ⟨first.fs, .start 9 (fun n => n) none⟩ =
        (.ok ⟨2, 1⟩, final) ∧
      final.session.written = utf8 "Converting d/a.java\nConverting d/b.java\n" ∧
      (∃ touched : Finset Place,
        (∀ place, place ∈ touched ↔ first.fs.item? place ≠ pair.item? place) ∧
          touched.card = 1) ∧
      (convert .standard { Config.standard with width := 2 } (utf8 "d")).run.run
        ⟨final.fs, .start 9 (fun n => n) none⟩ = (.ok ⟨2, 0⟩, again) ∧ again.fs = final.fs := by
  have hpaths : [utf8 "d/a.java", utf8 "d/b.java"] =
      matched pair Config.standard.pattern (utf8 "d") := by
    decide +kernel
  obtain ⟨hrepeated, hresumed⟩ :=
    convert_resumed wellFormed_pair .standard .standard (utf8 "d") hpaths
  let program := (convert .standard .standard (utf8 "d")).run
  let start : World := ⟨pair, .start 7 (fun n => n) none⟩
  let start₁ : World := ⟨pair, .start 8 (fun n => n + 5) (some 25)⟩
  let start₂ : World := ⟨(program.run start₁).2.fs, .start 9 (fun n => n) none⟩
  have hwhole : program.run start = (.ok ⟨2, 2⟩, (program.run start).2) :=
    Prod.ext (by decide +kernel) rfl
  have hfirst : program.run start₁ = (.error (.output .outputFull), (program.run start₁).2) :=
    Prod.ext (by decide +kernel) rfl
  have hfree₁ : AtEachChoice Free .standard Config.standard.width
      ([utf8 "d/a.java", utf8 "d/b.java"].take
        (fitting 25 [utf8 "d/a.java", utf8 "d/b.java"])) start₁ := by
    decide +kernel
  have hfree₂ : AtEachChoice Unhindered .standard Config.standard.width
      [utf8 "d/a.java", utf8 "d/b.java"] start₂ := by
    decide +kernel
  obtain ⟨modified, final, hsecond, hfs, hwritten, touched, touched', htouched, -, hcard', hcard⟩ :=
    hresumed _ _ _ _ hwhole _ _ _ _ _ hfree₁ hfirst _ _ hfree₂
  have hmodified : (program.run start₂).1 = .ok ⟨2, 1⟩ := by decide +kernel
  obtain rfl : modified = 1 := by
    rw [show program.run start₂ = (.ok ⟨2, modified⟩, final) from hsecond] at hmodified
    simpa using hmodified
  have hone : touched.card = 1 := by
    rw [hcard'] at hcard
    exact Nat.succ_injective hcard
  obtain ⟨sent, -, hagain⟩ := hrepeated _ _ _ hwhole
  obtain ⟨again, hthird, hsame, -⟩ := hagain 2 (.start 9 (fun n => n) none)
    (Session.accepts_of_limit_none rfl sent)
  have hsent : (program.run start).2.session.written =
      utf8 "Converting d/a.java\nConverting d/b.java\n" := by
    decide +kernel
  rw [← hfs] at hthird hsame
  exact ⟨_, final, again, hfirst, hsecond, hwritten.trans hsent,
    ⟨touched, htouched, hone⟩, hthird, hsame⟩

/-- **A conversion that cannot be taken up,** although the temporary name is free. The name of the file
has 245 letters, so the temporary name is short enough for a process whose number has one digit, but too
long for one whose number has five. The output of the first conversion accepts nothing. -/
theorem convert_not_resumed :
    let name := letters 240 ++ utf8 ".java"
    let fs := alone name ⟨pack [9], 0o600⟩
    let program := (convert .standard .standard name).run
    let whole := program.run ⟨fs, .start 7 (fun n => n) none⟩
    let first := program.run ⟨fs, .start 7 (fun n => n) (some 0)⟩
    let second : World := ⟨first.2.fs, .start 12345 (fun n => n) none⟩
    fs.WellFormed ∧ matched fs Config.standard.pattern name = [name] ∧ fitting 0 [name] = 0 ∧
      whole.1 = .ok ⟨1, 1⟩ ∧ first.1 = .error (.output .outputFull) ∧
      second.fs.entry? [temporaryName ⟨12345, 0⟩ name] = none ∧
      AtEachChoice Free .standard Config.standard.width [name] second ∧
      (program.run second).1 =
        .error (.replacing name (.creating (temporaryName ⟨12345, 0⟩ name) .nameTooLong)) := by
  intro name fs program whole first second
  refine ⟨wellFormed_alone (by decide +kernel) _, ?_, ?_, ?_, ?_, ?_, ?_, ?_⟩ <;> decide +kernel

end Conversion

end Detab
