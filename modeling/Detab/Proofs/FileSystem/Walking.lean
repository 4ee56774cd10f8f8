import Detab.FileSystem.Resolve
import Detab.Proofs.FileSystem.WellFormed

set_option relaxedAutoImplicit false
set_option autoImplicit false

/-!
# Walks through a tree

Resolving a path is a walk: it takes the steps of the path one by one, and a symbolic link puts the
steps of its target in front. What a walk meets is the *shape* of the tree: its directories with
their modes, its links with their targets, and where its files are. Neither the contents nor the
modes of files count.

## Main definitions

* `Detab.Shape`, `Detab.FileSystem.shape?` — what a place is to a walk.
* `Detab.FileSystem.Walked` — **the walks through all links,** step by step, with the number of links
  that may still be followed.
* `Detab.FileSystem.FirstStep` — what the first step of a resolution was.
* `Detab.FileSystem.Keeps` — a tree that has everything that another one has, up to the contents and
  modes of files.

## Main results

* `Detab.FileSystem.walkFrom_induction` — induction along a resolution that succeeds.
* `Detab.FileSystem.walkFrom_eq_ok_iff` — resolution finds exactly the ends of walks.
* `Detab.FileSystem.Walked.solid` — a walk ends at a file or a directory.
* `Detab.FileSystem.Walked.of_keeps`, `Detab.FileSystem.Keeps.resolve` — what can be reached stays
  where it is when a tree is kept.
* `Detab.FileSystem.walkFrom_append`, `Detab.FileSystem.exists_walked_of_walkFrom` — a walk goes on from
  where its first part ends, and it passes there.
-/

namespace Detab

open Detab.Path

/-! ## Shapes -/

/-- **What a place is to a walk.** -/
inductive Shape where
  | file
  | link (target : Path)
  | directory (mode : Mode)
  deriving DecidableEq, Repr

/-- Whether a place is a link to a walk. -/
def Shape.isLink : Shape → Bool
  | link _ => true
  | _ => false

/-- What a node is to a walk. -/
def Node.shape : Node → Shape
  | .leaf (.file _) => .file
  | .leaf (.link target) => .link target
  | .directory mode => .directory mode

namespace FileSystem

variable {fs fs' : FileSystem} {walk : Walk} {dots : Bool} {here goal mid place : Place}
  {links left more : Nat} {before rest : List Step} {mode : Mode} {entries : Directory} {n : Name}

/-- What a place is to a walk, if anything is there. -/
def shape? (fs : FileSystem) (place : Place) : Option Shape :=
  (fs.node? place).map Node.shape

/-- A place is a link to a walk exactly when its entry is one, with the same target. -/
lemma shape?_eq_link_iff {target : Path} :
    fs.shape? place = some (.link target) ↔ fs.entry? place = some (.leaf (.link target)) := by
  rw [← node?_eq_leaf_iff, shape?]
  rcases fs.node? place with _ | (_ | _) | _ <;> simp [Node.shape]

/-- A place is a directory to a walk exactly when its entry is one, with the same mode. -/
lemma shape?_eq_directory_iff :
    fs.shape? place = some (.directory mode) ↔
      ∃ entries, fs.entry? place = some (.directory mode entries) := by
  rw [← node?_eq_directory_iff, shape?]
  rcases fs.node? place with _ | (_ | _) | _ <;> simp [Node.shape]

/-- A place is a file to a walk exactly when its node is one. -/
lemma shape?_eq_file_iff :
    fs.shape? place = some .file ↔ ∃ id, fs.node? place = some (.leaf (.file id)) := by
  rw [shape?]
  rcases fs.node? place with _ | (_ | _) | _ <;> simp [Node.shape]

/-- A place is nothing to a walk exactly when it has no entry. -/
lemma shape?_eq_none_iff : fs.shape? place = none ↔ fs.entry? place = none := by
  rw [← node?_eq_none_iff, shape?, Option.map_eq_none_iff]

/-- A place that holds a file or a directory: where a walk may end. -/
def Solid (fs : FileSystem) (place : Place) : Prop :=
  ∃ shape, fs.shape? place = some shape ∧ ∀ target, shape ≠ .link target

/-- A walk may end at a directory. -/
lemma solid_of_directory (h : fs.shape? place = some (.directory mode)) : fs.Solid place :=
  ⟨_, h, by simp⟩

/-- What is above a directory is one, and the root is above itself. -/
lemma directory_dropLast (h : fs.shape? here = some (.directory mode)) :
    ∃ mode, fs.shape? here.dropLast = some (.directory mode) := by
  induction here using List.reverseRecOn with
  | nil => exact ⟨mode, h⟩
  | append_singleton parent n _ =>
    obtain ⟨e, he⟩ := shape?_eq_directory_iff.mp h
    obtain ⟨m, d, hparent⟩ := exists_directory_of_entry?_concat he
    rw [List.dropLast_concat]
    exact ⟨m, shape?_eq_directory_iff.mpr ⟨d, hparent⟩⟩

/-- The directory above a directory is one, so `..` leads from a directory to a directory. The root
is above itself. -/
lemma solid_dropLast (h : fs.shape? here = some (.directory mode)) : fs.Solid here.dropLast := by
  obtain ⟨m, hm⟩ := directory_dropLast h
  exact solid_of_directory hm

/-- Every walk starts in a directory. -/
lemma directory_startOf (h : fs.shape? here = some (.directory mode)) (target : Path) :
    ∃ mode, fs.shape? (startOf target here) = some (.directory mode) := by
  unfold startOf
  split
  · exact ⟨fs.rootMode, rfl⟩
  · exact ⟨mode, h⟩

/-- Wherever a link is met in a directory, the walk to its target begins at a directory: at the
root, or right there. -/
lemma solid_startOf (h : fs.shape? here = some (.directory mode)) (target : Path) :
    fs.Solid (startOf target here) := by
  obtain ⟨m, hm⟩ := directory_startOf h target
  exact solid_of_directory hm

/-! ## Walks -/

/-- A directory at `here` that can be passed through, if that is asked for. -/
def Passable (fs : FileSystem) (ask : Bool) (here : Place) : Prop :=
  ∃ mode, fs.shape? here = some (.directory mode) ∧ (ask = true → mode.canSearch = true)

/-- **Walks through all links:** from `here`, when `links` links may be followed, the steps lead to
`goal`, and `left` links may still be followed. `dots` says whether dots need the permission to pass
through the directory that they are taken in. -/
inductive Walked (fs : FileSystem) (dots : Bool) :
    (links : Nat) → (here : Place) → List Step → (left : Nat) → (goal : Place) → Prop
  | done {links : Nat} {here : Place} : Walked fs dots links here [] links here
  | directory {links left : Nat} {here goal : Place} {rest : List Step} :
      fs.Passable false here → Walked fs dots links here rest left goal →
        Walked fs dots links here (.directory :: rest) left goal
  | stay {links left : Nat} {here goal : Place} {rest : List Step} :
      fs.Passable dots here → Walked fs dots links here rest left goal →
        Walked fs dots links here (.stay :: rest) left goal
  | up {links left : Nat} {here goal : Place} {rest : List Step} :
      fs.Passable dots here → Walked fs dots links here.dropLast rest left goal →
        Walked fs dots links here (.up :: rest) left goal
  | name {links left : Nat} {here goal : Place} {rest : List Step} {n : Name} :
      fs.Passable true here → n.length ≤ maxName → fs.Solid (here ++ [n]) →
        Walked fs dots links (here ++ [n]) rest left goal →
        Walked fs dots links here (.name n :: rest) left goal
  | link {links left : Nat} {here goal : Place} {rest : List Step} {n : Name} {target : Path} :
      fs.Passable true here → n.length ≤ maxName →
        fs.shape? (here ++ [n]) = some (.link target) →
        Walked fs dots links (startOf target here) (steps target ++ rest) left goal →
        Walked fs dots (links + 1) here (.name n :: rest) left goal

/-! ### Resolution, one step at a time -/

/-- What happens behind a link: the walk goes on, and one link fewer may be followed. -/
def jump (fs : FileSystem) (walk : Walk) : Nat → Place → List Step → Except IoError Place
  | 0 => fun _ _ => .error .linkLoop
  | links + 1 => walkFrom fs walk links

/-- One unfolding of the walk: it takes the steps, and jumps behind links. -/
lemma walkFrom_eq (links : Nat) : walkFrom fs walk links = takeSteps fs walk (jump fs walk links) := by
  cases links <;> rfl

/-- Without steps a walk stays where it is. -/
lemma walkFrom_nil (links : Nat) (here : Place) : walkFrom fs walk links here [] = .ok here := by
  cases links <;> rfl

/-- The step of a slash at the end asks for a directory, and stays there. -/
lemma walkFrom_directory (h : fs.Passable false here) :
    walkFrom fs walk links here (.directory :: rest) = walkFrom fs walk links here rest := by
  obtain ⟨mode, hmode, -⟩ := h
  obtain ⟨entries, he⟩ := shape?_eq_directory_iff.mp hmode
  simp [walkFrom_eq, takeSteps, he]

/-- A dot stays in the directory. -/
lemma walkFrom_stay (h : fs.Passable walk.searchDots here) :
    walkFrom fs walk links here (.stay :: rest) = walkFrom fs walk links here rest := by
  obtain ⟨mode, hmode, hsearch⟩ := h
  obtain ⟨entries, he⟩ := shape?_eq_directory_iff.mp hmode
  simp +contextual [walkFrom_eq, takeSteps, he, hsearch]

/-- Two dots lead to the directory above. -/
lemma walkFrom_up (h : fs.Passable walk.searchDots here) :
    walkFrom fs walk links here (.up :: rest) = walkFrom fs walk links here.dropLast rest := by
  obtain ⟨mode, hmode, hsearch⟩ := h
  obtain ⟨entries, he⟩ := shape?_eq_directory_iff.mp hmode
  simp +contextual [walkFrom_eq, takeSteps, he, hsearch]

/-- A step to a name that stands for a file or a directory leads there. -/
lemma walkFrom_name (h : fs.Passable true here) (hn : n.length ≤ maxName)
    (hsolid : fs.Solid (here ++ [n])) :
    walkFrom fs walk links here (.name n :: rest) = walkFrom fs walk links (here ++ [n]) rest := by
  obtain ⟨mode, hmode, hsearch⟩ := h
  obtain ⟨entries, he⟩ := shape?_eq_directory_iff.mp hmode
  obtain ⟨shape, hshape, hlink⟩ := hsolid
  have hfind := entry?_concat he n
  rw [shape?, node?, hfind] at hshape
  rcases hentry : entries.find? n with _ | (_ | target) | _
  · simp [hentry] at hshape
  · simp [walkFrom_eq, takeSteps, he, hsearch, Nat.not_lt.mpr hn, hentry]
  · simp only [hentry, Option.map_some, Option.some.injEq] at hshape
    exact absurd hshape.symm (hlink target)
  · simp [walkFrom_eq, takeSteps, he, hsearch, Nat.not_lt.mpr hn, hentry]

/-- A step to a link that has to be followed goes on behind the link. -/
lemma walkFrom_eq_jump {target : Path} (h : fs.Passable true here) (hn : n.length ≤ maxName)
    (htarget : fs.shape? (here ++ [n]) = some (.link target))
    (hgo : rest ≠ [] ∨ walk.followLast = true) :
    walkFrom fs walk links here (.name n :: rest) =
      jump fs walk links (startOf target here) (steps target ++ rest) := by
  obtain ⟨mode, hmode, hsearch⟩ := h
  obtain ⟨entries, he⟩ := shape?_eq_directory_iff.mp hmode
  rw [shape?_eq_link_iff, entry?_concat he] at htarget
  have hgo' : ¬ (rest = [] ∧ walk.followLast = false) := by
    rintro ⟨h₁, h₂⟩
    rcases hgo with h | h
    · exact h h₁
    · simp [h] at h₂
  rw [walkFrom_eq]
  simp [takeSteps, he, hsearch, Nat.not_lt.mpr hn, htarget, hgo']

/-- A link that has to be followed takes one off the number of links that may be. -/
lemma walkFrom_link {target : Path} (h : fs.Passable true here) (hn : n.length ≤ maxName)
    (htarget : fs.shape? (here ++ [n]) = some (.link target))
    (hgo : rest ≠ [] ∨ walk.followLast = true) :
    walkFrom fs walk (links + 1) here (.name n :: rest) =
      walkFrom fs walk links (startOf target here) (steps target ++ rest) :=
  walkFrom_eq_jump h hn htarget hgo

/-- **A link at the end is not followed** by a walk that stops at it. -/
lemma walkFrom_stop {target : Path} (h : fs.Passable true here) (hn : n.length ≤ maxName)
    (htarget : fs.shape? (here ++ [n]) = some (.link target)) (hstop : walk.followLast = false) :
    walkFrom fs walk links here [.name n] = .ok (here ++ [n]) := by
  obtain ⟨mode, hmode, hsearch⟩ := h
  obtain ⟨entries, he⟩ := shape?_eq_directory_iff.mp hmode
  rw [shape?_eq_link_iff, entry?_concat he] at htarget
  simp [walkFrom_eq, takeSteps, he, hsearch, Nat.not_lt.mpr hn, htarget, hstop]

/-- **What the first step of a successful resolution was,** and how the resolution went on. -/
inductive FirstStep (fs : FileSystem) (walk : Walk) (goal : Place) :
    (links : Nat) → (here : Place) → (step : Step) → (rest : List Step) → Prop
  | directory {links : Nat} {here : Place} {rest : List Step} :
      fs.Passable false here → walkFrom fs walk links here rest = .ok goal →
        FirstStep fs walk goal links here .directory rest
  | stay {links : Nat} {here : Place} {rest : List Step} :
      fs.Passable walk.searchDots here → walkFrom fs walk links here rest = .ok goal →
        FirstStep fs walk goal links here .stay rest
  | up {links : Nat} {here : Place} {rest : List Step} :
      fs.Passable walk.searchDots here → walkFrom fs walk links here.dropLast rest = .ok goal →
        FirstStep fs walk goal links here .up rest
  | name {links : Nat} {here : Place} {rest : List Step} {n : Name} :
      fs.Passable true here → n.length ≤ maxName → fs.Solid (here ++ [n]) →
        walkFrom fs walk links (here ++ [n]) rest = .ok goal →
        FirstStep fs walk goal links here (.name n) rest
  | link {fewer : Nat} {here : Place} {rest : List Step} {n : Name} {target : Path} :
      fs.Passable true here → n.length ≤ maxName →
        fs.shape? (here ++ [n]) = some (.link target) → rest ≠ [] ∨ walk.followLast = true →
        walkFrom fs walk fewer (startOf target here) (steps target ++ rest) = .ok goal →
        FirstStep fs walk goal (fewer + 1) here (.name n) rest
  /-- A last link at which the resolution was to stop. -/
  | stop {links : Nat} {here : Place} {n : Name} {target : Path} :
      fs.Passable true here → n.length ≤ maxName → walk.followLast = false →
        fs.shape? (here ++ [n]) = some (.link target) → goal = here ++ [n] →
        FirstStep fs walk goal links here (.name n) []

/-- The first step by what the directory holds under its name.

**Proof sketch.** By what the name stands for. Nothing is refused; a file and a directory are
stepped to; a link is followed or stopped at, by whether it is the last step and whether the walk
follows a last link. -/
lemma firstStep_name (he : fs.entry? here = some (.directory mode entries))
    (hsearch : mode.canSearch = true) (hn : n.length ≤ maxName)
    (h : walkFrom fs walk links here (.name n :: rest) = .ok goal) :
    FirstStep fs walk goal links here (.name n) rest := by
  have hpass : fs.Passable true here :=
    ⟨mode, shape?_eq_directory_iff.mpr ⟨entries, he⟩, fun _ => hsearch⟩
  have hfind : fs.entry? (here ++ [n]) = entries.find? n := entry?_concat he n
  rcases hentry : entries.find? n with _ | (id | target) | ⟨m, e⟩
  · simp [walkFrom_eq, takeSteps, he, hsearch, Nat.not_lt.mpr hn, hentry] at h
  · have hsolid : fs.Solid (here ++ [n]) :=
      ⟨.file, by simp [shape?, node?, hfind, hentry, Entry.node, Node.shape], by simp⟩
    rw [walkFrom_name hpass hn hsolid] at h
    exact .name hpass hn hsolid h
  · have htarget : fs.shape? (here ++ [n]) = some (.link target) := by
      rw [shape?_eq_link_iff, hfind, hentry]
    -- a link at the very end is followed only by a walk that does so
    by_cases hgo : rest ≠ [] ∨ walk.followLast = true
    · rw [walkFrom_eq_jump hpass hn htarget hgo] at h
      cases links with
      | zero => simp [jump] at h
      | succ fewer => exact .link hpass hn htarget hgo h
    · obtain ⟨hrest, hfollow⟩ := not_or.mp hgo
      obtain rfl : rest = [] := not_not.mp hrest
      have hstop : walk.followLast = false := by simpa using hfollow
      rw [walkFrom_stop hpass hn htarget hstop] at h
      exact .stop hpass hn hstop htarget (Except.ok.inj h).symm
  · have hsolid : fs.Solid (here ++ [n]) :=
      solid_of_directory (shape?_eq_directory_iff.mpr ⟨e, hfind.trans hentry⟩)
    rw [walkFrom_name hpass hn hsolid] at h
    exact .name hpass hn hsolid h

/-- A resolution that succeeds has taken its first step.

**Proof sketch.** The walk is somewhere where there is a directory, for otherwise every step is
refused. Then by the kinds of steps, each with the permission that it asks for. -/
lemma firstStep_of_walkFrom {step : Step}
    (h : walkFrom fs walk links here (step :: rest) = .ok goal) :
    FirstStep fs walk goal links here step rest := by
  have hstep := h
  rw [walkFrom_eq, takeSteps] at hstep
  rcases he : fs.entry? here with _ | _ | ⟨mode, entries⟩
  · simp [he] at hstep
  · simp [he] at hstep
  have hmode : fs.shape? here = some (.directory mode) := shape?_eq_directory_iff.mpr ⟨entries, he⟩
  rw [he] at hstep
  cases step with
  | directory =>
    have hpass : fs.Passable false here := ⟨mode, hmode, by simp⟩
    rw [walkFrom_directory hpass] at h
    exact .directory hpass h
  | stay =>
    dsimp only at hstep
    split_ifs at hstep with hclosed
    have hpass : fs.Passable walk.searchDots here := ⟨mode, hmode, by simpa using hclosed⟩
    rw [walkFrom_stay hpass] at h
    exact .stay hpass h
  | up =>
    dsimp only at hstep
    split_ifs at hstep with hclosed
    have hpass : fs.Passable walk.searchDots here := ⟨mode, hmode, by simpa using hclosed⟩
    rw [walkFrom_up hpass] at h
    exact .up hpass h
  | name n =>
    dsimp only at hstep
    split at hstep
    · simp at hstep
    rename_i hclosed
    split at hstep
    · simp at hstep
    rename_i hlong
    exact firstStep_name he (by simpa using hclosed) (Nat.not_lt.mp hlong) h

/-- **Induction along a resolution that succeeds,** with one case for each way to take the first step.

**Proof sketch.** Induction on the links that may be followed, and for each number of them on the
steps: only behind a link the list of steps can grow, and there a link fewer may be followed. -/
@[elab_as_elim]
lemma walkFrom_induction
    {motive : (links : Nat) → (here : Place) → (path : List Step) →
      walkFrom fs walk links here path = .ok goal → Prop}
    (done : ∀ links, motive links goal [] (walkFrom_nil links goal))
    (directory : ∀ {links here rest} (hpass : fs.Passable false here)
      (hnext : walkFrom fs walk links here rest = .ok goal), motive links here rest hnext →
        motive links here (.directory :: rest) ((walkFrom_directory hpass).trans hnext))
    (stay : ∀ {links here rest} (hpass : fs.Passable walk.searchDots here)
      (hnext : walkFrom fs walk links here rest = .ok goal), motive links here rest hnext →
        motive links here (.stay :: rest) ((walkFrom_stay hpass).trans hnext))
    (up : ∀ {links here rest} (hpass : fs.Passable walk.searchDots here)
      (hnext : walkFrom fs walk links here.dropLast rest = .ok goal),
        motive links here.dropLast rest hnext →
        motive links here (.up :: rest) ((walkFrom_up hpass).trans hnext))
    (name : ∀ {links here rest n} (hpass : fs.Passable true here) (hn : n.length ≤ maxName)
      (hsolid : fs.Solid (here ++ [n]))
      (hnext : walkFrom fs walk links (here ++ [n]) rest = .ok goal),
        motive links (here ++ [n]) rest hnext →
        motive links here (.name n :: rest) ((walkFrom_name hpass hn hsolid).trans hnext))
    (link : ∀ {fewer here rest n target} (hpass : fs.Passable true here) (hn : n.length ≤ maxName)
      (htarget : fs.shape? (here ++ [n]) = some (.link target))
      (hgo : rest ≠ [] ∨ walk.followLast = true)
      (hnext : walkFrom fs walk fewer (startOf target here) (steps target ++ rest) = .ok goal),
        motive fewer (startOf target here) (steps target ++ rest) hnext →
        motive (fewer + 1) here (.name n :: rest) ((walkFrom_link hpass hn htarget hgo).trans hnext))
    (stop : ∀ {links here n target} (hpass : fs.Passable true here) (hn : n.length ≤ maxName)
      (hstop : walk.followLast = false) (htarget : fs.shape? (here ++ [n]) = some (.link target))
      (hend : goal = here ++ [n]),
        motive links here [.name n]
          ((walkFrom_stop hpass hn htarget hstop).trans (congrArg Except.ok hend.symm)))
    (links : Nat) (here : Place) (path : List Step)
    (h : walkFrom fs walk links here path = .ok goal) : motive links here path h := by
  induction links using Nat.strongRecOn generalizing here path with
  | ind links ihlinks =>
    induction path generalizing here with
    | nil =>
      obtain rfl := Except.ok.inj ((walkFrom_nil links here).symm.trans h)
      exact done links
    | cons step rest ih =>
      cases firstStep_of_walkFrom h with
      | directory hpass hnext => exact directory hpass hnext (ih here hnext)
      | stay hpass hnext => exact stay hpass hnext (ih here hnext)
      | up hpass hnext => exact up hpass hnext (ih here.dropLast hnext)
      | @name _ _ _ n hpass hn hsolid hnext =>
        exact name hpass hn hsolid hnext (ih (here ++ [n]) hnext)
      | @link fewer _ _ _ _ hpass hn htarget hgo hnext =>
        exact link hpass hn htarget hgo hnext (ihlinks fewer (Nat.lt_succ_self _) _ _ hnext)
      | stop hpass hn hstop htarget hend => exact stop hpass hn hstop htarget hend

/-! ### Resolution and walks -/

/-- What is found was walked to, or it is a link at which the resolution was to stop. -/
lemma link_or_exists_walked (links : Nat) (here : Place) (path : List Step)
    (h : walkFrom fs walk links here path = .ok goal) :
    (walk.followLast = false ∧ ∃ target, fs.shape? goal = some (.link target)) ∨
      ∃ left, Walked fs walk.searchDots links here path left goal := by
  induction links, here, path, h using walkFrom_induction with
  | done links => exact .inr ⟨links, .done⟩
  | directory hpass _ ih => exact ih.imp_right (.imp fun _ => .directory hpass)
  | stay hpass _ ih => exact ih.imp_right (.imp fun _ => .stay hpass)
  | up hpass _ ih => exact ih.imp_right (.imp fun _ => .up hpass)
  | name hpass hn hsolid _ ih => exact ih.imp_right (.imp fun _ => .name hpass hn hsolid)
  | link hpass hn htarget _ _ ih => exact ih.imp_right (.imp fun _ => .link hpass hn htarget)
  | stop _ _ hstop htarget hend => exact .inl ⟨hstop, _, hend ▸ htarget⟩

/-- A walk that has come to the end of its first part goes on with the rest, whatever is to be done
about a last link. -/
lemma walkFrom_append (h : Walked fs walk.searchDots links here before left mid)
    (hrest : rest ≠ [] ∨ walk.followLast = true) :
    walkFrom fs walk links here (before ++ rest) = walkFrom fs walk left mid rest := by
  induction h with
  | done => rfl
  | directory hpass _ ih => rw [List.cons_append, walkFrom_directory hpass, ih]
  | stay hpass _ ih => rw [List.cons_append, walkFrom_stay hpass, ih]
  | up hpass _ ih => rw [List.cons_append, walkFrom_up hpass, ih]
  | name hpass hn hsolid _ ih => rw [List.cons_append, walkFrom_name hpass hn hsolid, ih]
  | link hpass hn htarget _ ih =>
    have hgo : ∀ first : List Step, first ++ rest ≠ [] ∨ walk.followLast = true :=
      fun first => hrest.imp_left fun h => List.append_ne_nil_of_right_ne_nil first h
    rw [List.cons_append, walkFrom_link hpass hn htarget (hgo _), ← List.append_assoc, ih]

/-- **A resolution passes the end of every first part of its steps,** if there are steps behind it.

**Proof sketch.** Induction on links and steps as for `walkFrom_induction`, but only on the steps of the
first part. Behind a link these are the steps of its target and what was left of them. -/
lemma exists_walked_of_walkFrom (links : Nat) (here : Place) (before : List Step) (hrest : rest ≠ [])
    (h : walkFrom fs walk links here (before ++ rest) = .ok goal) :
    ∃ left mid, Walked fs walk.searchDots links here before left mid ∧
      walkFrom fs walk left mid rest = .ok goal := by
  induction links using Nat.strongRecOn generalizing here before with
  | ind links ihlinks =>
    induction before generalizing here with
    | nil => exact ⟨links, here, .done, h⟩
    | cons step before ih =>
      rw [List.cons_append] at h
      generalize hall : before ++ rest = all at h
      cases firstStep_of_walkFrom h with
      | directory hpass hnext =>
        obtain ⟨left, mid, hbefore, hgoal⟩ := ih here (hall ▸ hnext)
        exact ⟨left, mid, .directory hpass hbefore, hgoal⟩
      | stay hpass hnext =>
        obtain ⟨left, mid, hbefore, hgoal⟩ := ih here (hall ▸ hnext)
        exact ⟨left, mid, .stay hpass hbefore, hgoal⟩
      | up hpass hnext =>
        obtain ⟨left, mid, hbefore, hgoal⟩ := ih here.dropLast (hall ▸ hnext)
        exact ⟨left, mid, .up hpass hbefore, hgoal⟩
      | @name _ _ _ n hpass hn hsolid hnext =>
        obtain ⟨left, mid, hbefore, hgoal⟩ := ih (here ++ [n]) (hall ▸ hnext)
        exact ⟨left, mid, .name hpass hn hsolid hbefore, hgoal⟩
      | @link fewer _ _ _ target hpass hn htarget _ hnext =>
        rw [← hall, ← List.append_assoc] at hnext
        obtain ⟨left, mid, hbefore, hgoal⟩ := ihlinks fewer (Nat.lt_succ_self _) _ _ hnext
        exact ⟨left, mid, .link hpass hn htarget hbefore, hgoal⟩
      | stop => exact absurd (List.append_eq_nil_iff.mp hall).2 hrest

/-- Steps that stay lead nowhere else, and they are taken in a directory.

**Proof sketch.** Induction on the steps, none of which leads anywhere. -/
lemma goal_of_walkFrom_stays {path : List Step}
    (hstay : ∀ step ∈ path, step = .stay ∨ step = .directory)
    (h : walkFrom fs walk links here path = .ok goal) :
    goal = here ∧ (path ≠ [] → ∃ mode, fs.shape? here = some (.directory mode)) := by
  induction path with
  | nil =>
    rw [walkFrom_nil] at h
    exact ⟨(Except.ok.inj h).symm, fun hne => absurd rfl hne⟩
  | cons step rest ih =>
    have hrest := ih fun step hstep => hstay step (List.mem_cons_of_mem _ hstep)
    cases firstStep_of_walkFrom h with
    | directory hpass hnext => exact ⟨(hrest hnext).1, fun _ => hpass.imp fun _ hmode => hmode.1⟩
    | stay hpass hnext => exact ⟨(hrest hnext).1, fun _ => hpass.imp fun _ hmode => hmode.1⟩
    | up => simpa using hstay .up List.mem_cons_self
    | @name _ _ _ n => simpa using hstay (.name n) List.mem_cons_self
    | @link _ _ _ n => simpa using hstay (.name n) List.mem_cons_self
    | @stop _ _ n => simpa using hstay (.name n) List.mem_cons_self

/-- **Resolution through all links finds exactly the ends of walks.** -/
lemma walkFrom_eq_ok_iff (hall : walk.followLast = true) {path : List Step} :
    walkFrom fs walk links here path = .ok goal ↔
      ∃ left, Walked fs walk.searchDots links here path left goal := by
  refine ⟨fun h => (link_or_exists_walked links here path h).resolve_left (by simp [hall]), ?_⟩
  rintro ⟨left, h⟩
  have happend : walkFrom fs walk links here (path ++ []) = walkFrom fs walk left goal [] :=
    walkFrom_append h (.inr hall)
  rwa [List.append_nil, walkFrom_nil] at happend

namespace Walked

/-- Every walk through a list of steps passes the end of its first part.

**Proof sketch.** Induction on the walk, for all ways to cut its steps. Behind a link the first part
is the steps of its target and what was left of the first part. -/
lemma exists_mid {path : List Step} (h : Walked fs dots links here path left goal) :
    ∀ before rest, path = before ++ rest →
      ∃ more mid, Walked fs dots links here before more mid ∧
        Walked fs dots more mid rest left goal := by
  induction h with
  | done =>
    intro before rest hcut
    obtain ⟨rfl, rfl⟩ := List.append_eq_nil_iff.mp hcut.symm
    exact ⟨_, _, .done, .done⟩
  | directory hpass h ih =>
    intro before rest hcut
    obtain ⟨rfl, rfl⟩ | ⟨before, rfl, hrest⟩ := List.cons_eq_append_iff.mp hcut
    · exact ⟨_, _, .done, .directory hpass h⟩
    · obtain ⟨more, mid, h₁, h₂⟩ := ih before rest hrest
      exact ⟨more, mid, .directory hpass h₁, h₂⟩
  | stay hpass h ih =>
    intro before rest hcut
    obtain ⟨rfl, rfl⟩ | ⟨before, rfl, hrest⟩ := List.cons_eq_append_iff.mp hcut
    · exact ⟨_, _, .done, .stay hpass h⟩
    · obtain ⟨more, mid, h₁, h₂⟩ := ih before rest hrest
      exact ⟨more, mid, .stay hpass h₁, h₂⟩
  | up hpass h ih =>
    intro before rest hcut
    obtain ⟨rfl, rfl⟩ | ⟨before, rfl, hrest⟩ := List.cons_eq_append_iff.mp hcut
    · exact ⟨_, _, .done, .up hpass h⟩
    · obtain ⟨more, mid, h₁, h₂⟩ := ih before rest hrest
      exact ⟨more, mid, .up hpass h₁, h₂⟩
  | name hpass hn hsolid h ih =>
    intro before rest hcut
    obtain ⟨rfl, rfl⟩ | ⟨before, rfl, hrest⟩ := List.cons_eq_append_iff.mp hcut
    · exact ⟨_, _, .done, .name hpass hn hsolid h⟩
    · obtain ⟨more, mid, h₁, h₂⟩ := ih before rest hrest
      exact ⟨more, mid, .name hpass hn hsolid h₁, h₂⟩
  | @link _ _ _ _ _ _ target hpass hn htarget h ih =>
    intro before rest hcut
    obtain ⟨rfl, rfl⟩ | ⟨before, rfl, hrest⟩ := List.cons_eq_append_iff.mp hcut
    · exact ⟨_, _, .done, .link hpass hn htarget h⟩
    · obtain ⟨more, mid, h₁, h₂⟩ := ih (steps target ++ before) rest (by simp [hrest])
      exact ⟨more, mid, .link hpass hn htarget h₁, h₂⟩

/-- **A walk ends at a file or a directory:** where it started, or where its last step led. -/
lemma solid {path : List Step} (h : Walked fs dots links here path left goal)
    (hhere : fs.Solid here) : fs.Solid goal := by
  induction h with
  | done => exact hhere
  | directory _ _ ih => exact ih hhere
  | stay _ _ ih => exact ih hhere
  | up hpass _ ih => exact ih (solid_dropLast hpass.choose_spec.1)
  | name _ _ hsolid _ ih => exact ih hsolid
  | link hpass _ _ _ ih => exact ih (solid_startOf hpass.choose_spec.1 _)

/-- Without asking for permissions at dots, every walk is still one. -/
lemma withoutDots {path : List Step} (h : Walked fs dots links here path left goal) :
    Walked fs false links here path left goal := by
  have hany : ∀ {here}, fs.Passable dots here → fs.Passable false here :=
    fun ⟨mode, hmode, _⟩ => ⟨mode, hmode, by simp⟩
  induction h with
  | done => exact .done
  | directory hpass _ ih => exact .directory hpass ih
  | stay hpass _ ih => exact .stay (hany hpass) ih
  | up hpass _ ih => exact .up (hany hpass) ih
  | name hpass hn hsolid _ ih => exact .name hpass hn hsolid ih
  | link hpass hn htarget _ ih => exact .link hpass hn htarget ih

end Walked

/-! ## Resolving a path -/

/-- A path leads where its steps do, if it can be looked up at all. -/
lemma resolve_eq_ok_iff_walkFrom {path : Path} :
    fs.resolve walk path = .ok goal ↔ spellingError? path = none ∧
      walkFrom fs walk maxLinks (startOf path fs.workingDirectory) (steps path) = .ok goal := by
  rw [resolve]
  cases spellingError? path <;> simp

/-- A path is resolved to a place, with all links followed, exactly when it can be looked up at all
and its steps walk there. -/
lemma resolve_eq_ok_iff (hall : walk.followLast = true) {path : Path} :
    fs.resolve walk path = .ok goal ↔
      spellingError? path = none ∧ ∃ left, Walked fs walk.searchDots maxLinks
        (startOf path fs.workingDirectory) (steps path) left goal := by
  rw [resolve_eq_ok_iff_walkFrom, walkFrom_eq_ok_iff hall]

/-- In a well-formed tree every walk begins at a directory. -/
lemma WellFormed.solid_startOf (wf : fs.WellFormed) (path : Path) :
    fs.Solid (startOf path fs.workingDirectory) := by
  obtain ⟨mode, hmode⟩ := wf.workingDirectory
  exact FileSystem.solid_startOf (by rw [shape?, hmode]; rfl) path

/-- What a path leads to through all links is a file or a directory. -/
lemma WellFormed.solid_of_resolve (wf : fs.WellFormed) (hall : walk.followLast = true) {path : Path}
    (h : fs.resolve walk path = .ok goal) : fs.Solid goal := by
  obtain ⟨-, left, hwalked⟩ := (resolve_eq_ok_iff hall).mp h
  exact hwalked.solid (wf.solid_startOf path)

/-- Where a path leads, there is something. -/
lemma WellFormed.entry?_ne_none_of_resolve (wf : fs.WellFormed) {path : Path}
    (h : fs.resolve walk path = .ok goal) : fs.entry? goal ≠ none := by
  obtain ⟨-, hwalk⟩ := resolve_eq_ok_iff_walkFrom.mp h
  rw [ne_eq, ← shape?_eq_none_iff]
  rcases link_or_exists_walked _ _ _ hwalk with ⟨-, target, htarget⟩ | ⟨left, hwalked⟩
  · simp [htarget]
  · obtain ⟨shape, hshape, -⟩ := hwalked.solid (wf.solid_startOf path)
    simp [hshape]

/-- What the file system finds, the resolution by names alone finds at the same place. -/
lemma resolve_canonical {path : Path} (h : fs.resolve .toFile path = .ok goal) :
    fs.resolve .canonical path = .ok goal := by
  obtain ⟨hspelling, left, hwalked⟩ := (resolve_eq_ok_iff rfl).mp h
  exact (resolve_eq_ok_iff rfl).mpr ⟨hspelling, left, hwalked.withoutDots⟩

/-! ## Trees that keep what is there -/

/-- **A tree that has everything that another one has,** as far as walks are concerned: the same
directory to start from, and at every place that held something the same shape. There may be more,
and the contents and modes of files may be others. -/
structure Keeps (fs fs' : FileSystem) : Prop where
  workingDirectory : fs'.workingDirectory = fs.workingDirectory
  shape : ∀ place shape, fs.shape? place = some shape → fs'.shape? place = some shape

namespace Keeps

/-- A tree has everything that it has. -/
lemma refl (fs : FileSystem) : fs.Keeps fs :=
  ⟨rfl, fun _ _ h => h⟩

/-- What has everything of a second tree, and that one everything of a first, has everything of the
first one. -/
lemma trans {fs'' : FileSystem} (h : fs.Keeps fs') (h' : fs'.Keeps fs'') : fs.Keeps fs'' :=
  ⟨h'.workingDirectory.trans h.workingDirectory,
    fun place shape hshape => h'.shape place shape (h.shape place shape hshape)⟩

/-- Directories can still be passed through: their modes are the same. -/
lemma passable (h : fs.Keeps fs') (hpass : fs.Passable dots here) : fs'.Passable dots here := by
  obtain ⟨mode, hmode, hsearch⟩ := hpass
  exact ⟨mode, h.shape _ _ hmode, hsearch⟩

/-- A walk may still end where it could. -/
lemma solid (h : fs.Keeps fs') (hsolid : fs.Solid here) : fs'.Solid here := by
  obtain ⟨shape, hshape, hlink⟩ := hsolid
  exact ⟨shape, h.shape _ _ hshape, hlink⟩

end Keeps

/-- Every walk can still be taken in a tree that is kept. -/
lemma Walked.of_keeps (h : fs.Keeps fs') {path : List Step}
    (hwalked : Walked fs dots links here path left goal) :
    Walked fs' dots links here path left goal := by
  induction hwalked with
  | done => exact .done
  | directory hpass _ ih => exact .directory (h.passable hpass) ih
  | stay hpass _ ih => exact .stay (h.passable hpass) ih
  | up hpass _ ih => exact .up (h.passable hpass) ih
  | name hpass hn hsolid _ ih => exact .name (h.passable hpass) hn (h.solid hsolid) ih
  | link hpass hn htarget _ ih => exact .link (h.passable hpass) hn (h.shape _ _ htarget) ih

/-- A resolution that succeeds takes the same steps in a tree that is kept, whatever is to be done
about a last link. -/
lemma Keeps.walkFrom (h : fs.Keeps fs') (links : Nat) (here : Place) (path : List Step)
    (hgoal : walkFrom fs walk links here path = .ok goal) :
    walkFrom fs' walk links here path = .ok goal := by
  induction links, here, path, hgoal using walkFrom_induction with
  | done links => exact walkFrom_nil links goal
  | directory hpass _ ih => rw [walkFrom_directory (h.passable hpass), ih]
  | stay hpass _ ih => rw [walkFrom_stay (h.passable hpass), ih]
  | up hpass _ ih => rw [walkFrom_up (h.passable hpass), ih]
  | name hpass hn hsolid _ ih => rw [walkFrom_name (h.passable hpass) hn (h.solid hsolid), ih]
  | link hpass hn htarget hgo _ ih =>
    rw [walkFrom_link (h.passable hpass) hn (h.shape _ _ htarget) hgo, ih]
  | stop hpass hn hstop htarget hend =>
    rw [walkFrom_stop (h.passable hpass) hn (h.shape _ _ htarget) hstop, hend]

/-- **What can be reached stays where it is** when a tree is kept. -/
lemma Keeps.resolve (h : fs.Keeps fs') {path : Path} (hgoal : fs.resolve walk path = .ok goal) :
    fs'.resolve walk path = .ok goal := by
  obtain ⟨hspelling, hwalk⟩ := resolve_eq_ok_iff_walkFrom.mp hgoal
  refine resolve_eq_ok_iff_walkFrom.mpr ⟨hspelling, ?_⟩
  rw [h.workingDirectory]
  exact h.walkFrom _ _ _ hwalk

/-! ## Walking names -/

/-- What is on the way to something else is no link. -/
lemma solid_of_append {p : Place} {q : Place} (hq : q ≠ []) {e : Entry}
    (h : fs.entry? (p ++ q) = some e) : fs.Solid p := by
  cases hp : fs.entry? p with
  | none => simp [entry?_append, hp] at h
  | some e' =>
    cases e' with
    | leaf l =>
      obtain ⟨n, q, rfl⟩ := List.exists_cons_of_ne_nil hq
      simp [entry?_append_of_leaf hp] at h
    | directory mode entries =>
      exact solid_of_directory (shape?_eq_directory_iff.mpr ⟨entries, hp⟩)

/-- What is above a place where a walk may end is a place of this kind as well. -/
lemma Solid.of_append {p q : Place} (h : fs.Solid (p ++ q)) : fs.Solid p := by
  by_cases hq : q = []
  · rwa [hq, List.append_nil] at h
  · obtain ⟨shape, hshape, -⟩ := h
    cases hentry : fs.entry? (p ++ q) with
    | none =>
      rw [shape?_eq_none_iff.mpr hentry] at hshape
      simp at hshape
    | some e => exact solid_of_append hq hentry

/-- A walk along the names of a file or directory that is there leads to it, without links.

**Proof sketch.** Induction on the names. A link on the way is excluded, since everything above a
place where a walk may end is a directory. -/
lemma Walked.goal_of_names {names : List Name}
    (h : Walked fs dots links here (names.map .name) left goal) (hsolid : fs.Solid (here ++ names)) :
    goal = here ++ names := by
  induction names generalizing here links with
  | nil =>
    cases h
    rw [List.append_nil]
  | cons n names ih =>
    have hcut : here ++ n :: names = here ++ [n] ++ names := by simp
    rw [hcut] at hsolid ⊢
    cases h with
    | name _ _ _ h => exact ih h hsolid
    | @link _ _ _ _ _ _ target _ _ htarget _ =>
      obtain ⟨shape, hshape, hlink⟩ := hsolid.of_append
      exact absurd (Option.some.inj (hshape.symm.trans htarget)) (hlink target)

end FileSystem

end Detab
