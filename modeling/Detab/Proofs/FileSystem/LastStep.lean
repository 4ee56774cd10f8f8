import Detab.Proofs.FileSystem.Spelling
import Detab.Proofs.FileSystem.Walking

set_option relaxedAutoImplicit false
set_option autoImplicit false

/-!
# The last step of a path

Entries are made, replaced and removed by the last step of a path: a name, in the directory that the
steps before it lead to.

## Main definitions

* `Detab.FileSystem.Vacant` — a path under which nothing exists yet.
* `Detab.FileSystem.lastPlace?` — the place of the last name of a path.
* `Detab.FileSystem.Settled` — a path that does not end at a link.

## Main results

* `Detab.FileSystem.vacant_iff` — nothing exists under a path if nothing is at the place of its last
  name.
* `Detab.FileSystem.lastStep_eq_entry_iff` — what has to be so for a path to have a last name.
* `Detab.FileSystem.lastStep_of_keeps` — the last step of a path in a tree that is kept.
* `Detab.FileSystem.lastStep_of_resolve_leaf`, `Detab.FileSystem.lastStep_of_resolve_file` — a path to
  a file ends with its name, and so does one to a link.
* `Detab.FileSystem.lastStep_sibling` — **a path and its sibling end in the same directory.**
* `Detab.FileSystem.resolve_eq_concat`, `Detab.FileSystem.isLink_of_lastStep` — what the last name is
  to resolution.
-/

namespace Detab.FileSystem

open Detab.Path

variable {fs fs' : FileSystem} {path temporary : Path} {parent parent' goal : Place}
  {mode mode' : Mode} {entries entries' : Directory} {n n' : Name} {asDirectory : Bool}

/-- **A path under which nothing exists yet:** if its last step is a name in a directory that can be
reached, that name is not taken. -/
def Vacant (fs : FileSystem) (path : Path) : Prop :=
  ∀ parent mode entries n asDirectory,
    fs.lastStep path = .ok (.entry parent mode entries n asDirectory) → entries.find? n = none

/-- The place of the last name of a path, in a directory that can be reached. -/
def lastPlace? (fs : FileSystem) (path : Path) : Option Place :=
  match fs.lastStep path with
  | .ok (.entry parent _ _ n _) => some (parent ++ [n])
  | _ => none

/-- The step that a slash at the end adds. -/
def directoryStep (asDirectory : Bool) : List Step :=
  if asDirectory then [.directory] else []

/-- The steps without the one that a slash at the end adds. -/
def withoutSlash (path : List Step) : List Step :=
  if path.getLast? = some .directory then path.dropLast else path

/-- Cutting off the step of a slash at the end, and putting it back, gives the same steps. -/
lemma withoutSlash_append (path : List Step) :
    withoutSlash path ++ directoryStep (decide (path.getLast? = some .directory)) = path := by
  unfold withoutSlash directoryStep
  split_ifs with hslash
  · obtain ⟨front, rfl⟩ := List.getLast?_eq_some_iff.mp hslash
    simp
  · simp_all
  · simp_all
  · simp

/-- **What has to be so for a path to have a last name.**

**Proof sketch.** The steps without the one for a slash at the end are cut before their last one. The
steps before lead to the parent exactly when there is a walk to it. -/
lemma lastStep_eq_entry_iff :
    fs.lastStep path = .ok (.entry parent mode entries n asDirectory) ↔
      spellingError? path = none ∧
      ∃ before, steps path = before ++ .name n :: directoryStep asDirectory ∧
        (∃ left, Walked fs true maxLinks (startOf path fs.workingDirectory) before left parent) ∧
        fs.entry? parent = some (.directory mode entries) ∧ mode.canSearch = true ∧
        n.length ≤ maxName := by
  unfold lastStep
  cases hspelling : spellingError? path with
  | some e => simp
  | none =>
    simp only [true_and]
    constructor
    · intro h
      have hcut := withoutSlash_append (steps path)
      rw [← withoutSlash] at h
      cases hwalk : walkFrom fs .toFile maxLinks (startOf path fs.workingDirectory)
          (withoutSlash (steps path)).dropLast with
      | error e => simp [hwalk] at h
      | ok place =>
        rw [hwalk] at h
        rcases hlast : (withoutSlash (steps path)).getLast? with _ | step
        · simp [hlast] at h
        rcases hentry : fs.entry? place with _ | _ | ⟨m, e⟩
        · simp [hentry, hlast] at h
        · simp [hentry, hlast] at h
        simp only [hentry, hlast] at h
        split at h
        · simp at h
        rename_i hclosed
        split at h
        · split at h
          · simp at h
          rename_i hlong
          obtain ⟨rfl, rfl, rfl, rfl, rfl⟩ := LastStep.entry.inj (Except.ok.inj h)
          obtain ⟨front, hfront⟩ := List.getLast?_eq_some_iff.mp hlast
          rw [hfront, List.dropLast_concat] at hwalk
          refine ⟨front, ?_, (walkFrom_eq_ok_iff rfl).mp hwalk, hentry, by simpa using hclosed,
            by omega⟩
          rw [hfront] at hcut
          simpa using hcut.symm
        · simp at h
    · rintro ⟨before, hsteps, hwalked, hentry, hsearch, hn⟩
      have hwalk : walkFrom fs .toFile maxLinks (startOf path fs.workingDirectory) before =
          .ok parent := (walkFrom_eq_ok_iff rfl).mpr hwalked
      cases asDirectory <;>
        simp [hsteps, directoryStep, hwalk, hentry, hsearch, Nat.not_lt.mpr hn]

/-- No zero byte is in a path that can be looked up. -/
lemma zero_notMem_of_spellingError? (h : spellingError? path = none) : 0 ∉ path := by
  intro hzero
  simp [spellingError?, hzero] at h

/-- The last name of a path is what an entry can be called. -/
lemma isName_of_lastStep (h : fs.lastStep path = .ok (.entry parent mode entries n asDirectory)) :
    IsName n := by
  obtain ⟨hspelling, before, hsteps, -⟩ := lastStep_eq_entry_iff.mp h
  exact isName_of_mem_steps (zero_notMem_of_spellingError? hspelling) (by simp [hsteps])

/-- The last place of a path is that of a name in the directory that its last step is taken in. -/
lemma lastPlace?_eq_some_iff :
    fs.lastPlace? path = some goal ↔ ∃ parent mode entries n asDirectory,
      fs.lastStep path = .ok (.entry parent mode entries n asDirectory) ∧ goal = parent ++ [n] := by
  unfold lastPlace?
  rcases fs.lastStep path with e | ⟨parent, mode, entries, n, asDirectory⟩ | _
  · simp
  · simp [eq_comm]
  · simp

/-- **Nothing exists under a path** if nothing is at the place of its last name. -/
lemma vacant_iff :
    fs.Vacant path ↔ ∀ place ∈ fs.lastPlace? path, fs.entry? place = none := by
  constructor
  · intro h place hplace
    obtain ⟨parent, mode, entries, n, asDirectory, hlast, rfl⟩ := lastPlace?_eq_some_iff.mp hplace
    obtain ⟨-, -, -, -, hparent, -⟩ := lastStep_eq_entry_iff.mp hlast
    rw [entry?_concat hparent, h _ _ _ _ _ hlast]
  · intro h parent mode entries n asDirectory hlast
    obtain ⟨-, -, -, -, hparent, -⟩ := lastStep_eq_entry_iff.mp hlast
    rw [← entry?_concat hparent]
    exact h _ (lastPlace?_eq_some_iff.mpr ⟨_, _, _, _, _, hlast, rfl⟩)

/-- Whether a path is free can be computed: there is at most one last place to look at. -/
instance (fs : FileSystem) (path : Path) : Decidable (fs.Vacant path) :=
  decidable_of_iff _ vacant_iff.symm

/-- The last step of a path in a tree that is kept, whatever else the parent holds there. -/
lemma lastStep_of_keeps (hkeeps : fs.Keeps fs')
    (h : fs.lastStep path = .ok (.entry parent mode entries n asDirectory))
    (hparent : fs'.entry? parent = some (.directory mode entries')) :
    fs'.lastStep path = .ok (.entry parent mode entries' n asDirectory) := by
  obtain ⟨hspelling, before, hsteps, ⟨left, hwalked⟩, -, hsearch, hn⟩ :=
    lastStep_eq_entry_iff.mp h
  refine lastStep_eq_entry_iff.mpr
    ⟨hspelling, before, hsteps, ⟨left, ?_⟩, hparent, hsearch, hn⟩
  rw [hkeeps.workingDirectory]
  exact hwalked.of_keeps hkeeps

/-- A list of steps leads to one place. -/
lemma Walked.goal_unique {dots : Bool} {links left left' : Nat} {here goal' : Place}
    {path : List Step} (h : Walked fs dots links here path left goal)
    (h' : Walked fs dots links here path left' goal') : goal = goal' := by
  let walk : Walk := ⟨true, dots⟩
  have hgoal : walkFrom fs walk links here path = .ok goal := (walkFrom_eq_ok_iff rfl).mpr ⟨_, h⟩
  have hgoal' : walkFrom fs walk links here path = .ok goal' :=
    (walkFrom_eq_ok_iff rfl).mpr ⟨_, h'⟩
  exact Except.ok.inj (hgoal.symm.trans hgoal')

/-- Steps that stay lead nowhere else. -/
lemma Walked.goal_of_stays {dots : Bool} {links left : Nat} {here : Place} {path : List Step}
    (h : Walked fs dots links here path left goal)
    (hstay : ∀ step ∈ path, step = .stay ∨ step = .directory) : here = goal := by
  induction h with
  | done => rfl
  | stay _ _ ih => exact ih fun step hstep => hstay step (by simp [hstep])
  | directory _ _ ih => exact ih fun step hstep => hstay step (by simp [hstep])
  | up => simpa using hstay .up (by simp)
  | @name _ _ _ _ _ n => simpa using hstay (.name n) (by simp)
  | @link _ _ _ _ _ n => simpa using hstay (.name n) (by simp)

/-- The last name of a path is looked up in the directory that holds it. -/
lemma exists_resolve_eq_walkFrom (walk : Walk) (hdots : walk.searchDots = true)
    (h : fs.lastStep path = .ok (.entry parent mode entries n false)) :
    fs.Passable true parent ∧ n.length ≤ maxName ∧
      ∃ left, fs.resolve walk path = walkFrom fs walk left parent [.name n] := by
  obtain ⟨hspelling, before, hsteps, ⟨left, hwalked⟩, hparent, hsearch, hn⟩ :=
    lastStep_eq_entry_iff.mp h
  refine ⟨⟨mode, shape?_eq_directory_iff.mpr ⟨entries, hparent⟩, fun _ => hsearch⟩, hn, left, ?_⟩
  rw [resolve, hspelling, hsteps]
  rw [← hdots] at hwalked
  exact walkFrom_append hwalked (.inl (List.cons_ne_nil _ _))

/-- Where the last name is no link, or no link is followed at the end, resolution ends at it.

**Proof sketch.** The walk comes to the directory of the last name, with this one step left. If that
led on through a link, it would have to follow a last link, which is excluded. -/
lemma resolve_eq_concat {walk : Walk} (hdots : walk.searchDots = true)
    (h : fs.lastStep path = .ok (.entry parent mode entries n false))
    (hgoal : fs.resolve walk path = .ok goal)
    (hlink : walk.followLast = true → ∀ target, entries.find? n ≠ some (.leaf (.link target))) :
    goal = parent ++ [n] := by
  obtain ⟨-, -, -, -, hparent, -, -⟩ := lastStep_eq_entry_iff.mp h
  obtain ⟨-, -, left, hresolve⟩ := exists_resolve_eq_walkFrom walk hdots h
  rw [hresolve] at hgoal
  cases firstStep_of_walkFrom hgoal with
  | name _ _ _ hnext =>
    rw [walkFrom_nil] at hnext
    exact (Except.ok.inj hnext).symm
  | @link _ _ _ _ target _ _ htarget hgo _ =>
    rw [shape?_eq_link_iff, entry?_concat hparent] at htarget
    exact absurd htarget (hlink (hgo.resolve_left (not_not.mpr rfl)) target)
  | stop _ _ _ _ hend => exact hend

/-- Where the last name is a file, resolution ends at it. -/
lemma resolve_of_lastStep (h : fs.lastStep path = .ok (.entry parent mode entries n false))
    {id : FileId} (hfile : entries.find? n = some (.leaf (.file id))) :
    fs.resolve .toFile path = .ok (parent ++ [n]) := by
  obtain ⟨-, -, -, -, hparent, -, -⟩ := lastStep_eq_entry_iff.mp h
  obtain ⟨hpass, hn, left, hresolve⟩ := exists_resolve_eq_walkFrom .toFile rfl h
  have hsolid : fs.Solid (parent ++ [n]) := by
    refine ⟨.file, shape?_eq_file_iff.mpr ⟨id, ?_⟩, by simp⟩
    rw [node?_eq_leaf_iff, entry?_concat hparent, hfile]
  rw [hresolve, walkFrom_name hpass hn hsolid, walkFrom_nil]

/-- Where the last name is taken, whatever has it is found there: no link is followed at the end. -/
lemma resolve_toEntry_of_lastStep (h : fs.lastStep path = .ok (.entry parent mode entries n false))
    (hn : entries.find? n ≠ none) : fs.resolve .toEntry path = .ok (parent ++ [n]) := by
  obtain ⟨-, -, -, -, hparent, -, -⟩ := lastStep_eq_entry_iff.mp h
  obtain ⟨hpass, hlong, left, hresolve⟩ := exists_resolve_eq_walkFrom .toEntry rfl h
  rw [hresolve]
  cases hshape : fs.shape? (parent ++ [n]) with
  | none => exact absurd (by rwa [shape?_eq_none_iff, entry?_concat hparent] at hshape) hn
  | some shape =>
    cases shape with
    | link target => exact walkFrom_stop hpass hlong hshape rfl
    | file => rw [walkFrom_name hpass hlong ⟨_, hshape, by simp⟩, walkFrom_nil]
    | directory m => rw [walkFrom_name hpass hlong ⟨_, hshape, by simp⟩, walkFrom_nil]

/-- Where the last name is a link, the path leads to a link. -/
lemma isLink_of_lastStep (h : fs.lastStep path = .ok (.entry parent mode entries n false))
    {target : Path} (hlink : entries.find? n = some (.leaf (.link target))) :
    fs.isLink path = .ok true := by
  obtain ⟨-, -, -, -, hparent, -, -⟩ := lastStep_eq_entry_iff.mp h
  have hplace := resolve_toEntry_of_lastStep h (by simp [hlink])
  rw [isLink, lookUp, hplace]
  simp only [entry?_concat hparent, hlink]

/-- The last step of a path that leads somewhere is the one that it has in a tree that has more. -/
lemma Keeps.lastStep_of_resolve (hkeeps : fs.Keeps fs')
    (hgoal : fs.resolve .toFile path = .ok goal)
    (h : fs'.lastStep path = .ok (.entry parent mode entries' n asDirectory))
    (hparent : fs.entry? parent = some (.directory mode entries)) :
    fs.lastStep path = .ok (.entry parent mode entries n asDirectory) := by
  obtain ⟨hspelling, before, hsteps, ⟨left, hwalked⟩, -, hsearch, hn⟩ :=
    lastStep_eq_entry_iff.mp h
  obtain ⟨-, last, hall⟩ := (resolve_eq_ok_iff rfl).mp hgoal
  obtain ⟨more, mid, hbefore, -⟩ := hall.exists_mid before _ hsteps
  rw [hkeeps.workingDirectory] at hwalked
  obtain rfl : parent = mid := hwalked.goal_unique (hbefore.of_keeps hkeeps)
  exact lastStep_eq_entry_iff.mpr
    ⟨hspelling, before, hsteps, ⟨more, hbefore⟩, hparent, hsearch, hn⟩

/-! ## Paths that do not end at a link -/

/-- **A path that does not end at a link:** where its last step is a name, no link has it. -/
def Settled (fs : FileSystem) (path : Path) : Prop :=
  ∀ parent mode entries n, fs.lastStep path = .ok (.entry parent mode entries n false) →
    ∀ target, entries.find? n ≠ some (.leaf (.link target))

/-- **A path that is found to be no link does not end at one,** because its last step has been
looked at. -/
lemma settled_of_isLink (h : fs.isLink path = .ok false) : fs.Settled path := by
  intro parent mode entries n hlast target hlink
  rw [isLink_of_lastStep hlast hlink] at h
  simp at h

/-- The canonical path of a file or directory does not end at a link.

**Proof sketch.** The path of the root has no last step to a name. Any other canonical path consists
of names alone, so its walk leads to the directory above the place, and what is there under the last
name is a file or a directory. -/
lemma settled_pathOf {place : Place} (hnames : ∀ n ∈ place, IsName n) (hsolid : fs.Solid place) :
    fs.Settled (pathOf place) := by
  intro parent mode entries n hlast target hlink
  obtain ⟨-, before, hsteps, ⟨left, hwalked⟩, hparent, -⟩ := lastStep_eq_entry_iff.mp hlast
  rcases List.eq_nil_or_concat' place with rfl | ⟨front, last, rfl⟩
  · have hroot : steps (pathOf []) = [.directory] := by decide
    rw [hroot] at hsteps
    have := congrArg List.getLast? hsteps
    simp [directoryStep, List.getLast?_append] at this
  · rw [steps_pathOf hnames (by simp), List.map_append] at hsteps
    obtain ⟨rfl, hn⟩ := List.append_inj' hsteps (by simp [directoryStep])
    obtain rfl : last = n := by simpa [directoryStep] using hn
    have hstart : startOf (pathOf (front ++ [last])) fs.workingDirectory = [] := by
      rw [startOf, isAbsolute_pathOf, if_pos rfl]
    rw [hstart] at hwalked
    obtain rfl : parent = front := hwalked.goal_of_names hsolid.of_append
    obtain ⟨shape, hshape, hnolink⟩ := hsolid
    have htarget : fs.shape? (parent ++ [last]) = some (.link target) := by
      rw [shape?_eq_link_iff, entry?_concat hparent, hlink]
    exact hnolink target (Option.some.inj (hshape.symm.trans htarget))

/-- The canonical path of a file or directory leads nowhere else. -/
lemma goal_of_resolve_pathOf {place : Place} (hnames : ∀ n ∈ place, IsName n)
    (hsolid : fs.Solid place) (h : fs.resolve .toFile (pathOf place) = .ok goal) :
    goal = place := by
  obtain ⟨-, left, hwalked⟩ := (resolve_eq_ok_iff rfl).mp h
  rw [startOf, isAbsolute_pathOf, if_pos rfl] at hwalked
  by_cases hne : place = []
  · subst hne
    have hroot : steps (pathOf []) = [.directory] := by decide
    rw [hroot] at hwalked
    exact (hwalked.goal_of_stays (by simp)).symm
  · rw [steps_pathOf hnames hne] at hwalked
    exact hwalked.goal_of_names hsolid

/-- **A path with a file name that does not lead to a directory** ends with that name.

**Proof sketch.** What follows the name on the path could only be steps that stay, and these are
taken in directories. -/
lemma lastStep_of_resolve_leaf {walk : Walk} (hdots : walk.searchDots = true) {split : List Bytes}
    {name : Name} (hsplit : path.splitName? = some (split, name))
    (hgoal : fs.resolve walk path = .ok goal)
    (hleaf : ∀ mode, fs.shape? goal ≠ some (.directory mode)) :
    ∃ parent mode entries, fs.lastStep path = .ok (.entry parent mode entries name false) := by
  obtain ⟨between, behind, hsteps, -, hbehind⟩ := steps_of_splitName? hsplit
  obtain ⟨hspelling, hall⟩ := resolve_eq_ok_iff_walkFrom.mp hgoal
  have hnil : behind ++ (if path.getLast? = some slash then [Step.directory] else []) = [] := by
    by_contra hne
    rw [hsteps, List.append_cons] at hall
    obtain ⟨left, mid, -, htail⟩ := exists_walked_of_walkFrom _ _ _ hne hall
    have hstay : ∀ step ∈ behind ++ (if path.getLast? = some slash then [Step.directory] else []),
        step = .stay ∨ step = .directory := by
      intro step hstep
      rcases List.mem_append.mp hstep with hstep | hstep
      · exact .inl (hbehind step hstep)
      · split_ifs at hstep
        · exact .inr (List.mem_singleton.mp hstep)
        · simp at hstep
    obtain ⟨rfl, hmid⟩ := goal_of_walkFrom_stays hstay htail
    obtain ⟨mode, hmode⟩ := hmid hne
    exact hleaf mode hmode
  rw [hnil] at hsteps
  rw [hsteps] at hall
  obtain ⟨left, mid, hbefore, hname⟩ := exists_walked_of_walkFrom _ _ _ (List.cons_ne_nil _ _) hall
  have hpass : fs.Passable true mid ∧ name.length ≤ maxName := by
    cases firstStep_of_walkFrom hname with
    | name hpass hn _ _ => exact ⟨hpass, hn⟩
    | link hpass hn _ _ _ => exact ⟨hpass, hn⟩
    | stop hpass hn _ _ _ => exact ⟨hpass, hn⟩
  obtain ⟨⟨mode, hmode, hsearch⟩, hn⟩ := hpass
  obtain ⟨entries, hmid⟩ := shape?_eq_directory_iff.mp hmode
  rw [hdots] at hbefore
  exact ⟨mid, mode, entries, lastStep_eq_entry_iff.mpr
    ⟨hspelling, _, hsteps, ⟨left, hbefore⟩, hmid, hsearch rfl, hn⟩⟩

/-- **A path with a file name that leads to a file,** and does not end at a link, ends with the name
of that file. -/
lemma lastStep_of_resolve_file {split : List Bytes} {name : Name}
    (hsplit : path.splitName? = some (split, name)) (hsettled : fs.Settled path)
    (hgoal : fs.resolve .toFile path = .ok goal) (hfile : fs.shape? goal = some .file) :
    ∃ parent mode entries, goal = parent ++ [name] ∧
      fs.lastStep path = .ok (.entry parent mode entries name false) := by
  obtain ⟨parent, mode, entries, hlast⟩ :=
    lastStep_of_resolve_leaf rfl hsplit hgoal (by simp [hfile])
  exact ⟨parent, mode, entries, resolve_eq_concat rfl hlast hgoal fun _ => hsettled _ _ _ _ hlast, hlast⟩

/-! ## Siblings -/

section Siblings

variable {rename : Name → Name} {split : List Bytes} {name : Name}

/-- The last name of a path that has a file name, and the steps before it.

**Proof sketch.** The steps of the path are those of its parent, some that stay, the name, and again
some that stay, with one for a slash at the end. As the last step is a name, nothing comes behind
the name of the file. -/
lemma before_eq_of_splitName? {before : List Step} (hsplit : path.splitName? = some (split, name))
    (hsteps : steps path = before ++ [.name n]) :
    n = name ∧ ∃ between, before = split.filterMap step? ++ between ∧
      ∀ step ∈ between, step = .stay := by
  obtain ⟨between, behind, hpath, hbetween, hbehind⟩ := steps_of_splitName? hsplit
  rw [hsteps] at hpath
  rcases List.eq_nil_or_concat' (behind ++
      if path.getLast? = some slash then [Step.directory] else []) with hnil | ⟨front, last, hlast⟩
  · rw [hnil] at hpath
    obtain ⟨hbefore, hn⟩ := List.append_inj' hpath rfl
    exact ⟨by simpa using hn, between, hbefore, hbetween⟩
  · -- the last step would be one that stays, or the one for a slash at the end
    have hcut : before ++ [.name n] =
        (split.filterMap step? ++ between ++ .name name :: front) ++ [last] := by
      rw [hpath, hlast]
      simp
    have hend : last = .name n := by simpa [eq_comm] using (List.append_inj' hcut rfl).2
    have hmem : last ∈ behind ++ if path.getLast? = some slash then [Step.directory] else [] := by
      simp [hlast]
    rcases List.mem_append.mp hmem with hmem | hmem
    · simpa [hend] using hbehind last hmem
    · split_ifs at hmem <;> simp [hend] at hmem

/-- The last step of a sibling is its new name, without a slash behind it. -/
lemma lastStep_of_sibling (hsplit : path.splitName? = some (split, name))
    (htemporary : path.sibling? rename = some temporary) (hrename : IsStep (rename name))
    (h : fs.lastStep temporary = .ok (.entry parent mode entries n asDirectory)) :
    n = rename name ∧ asDirectory = false := by
  obtain ⟨-, before, hsteps, -⟩ := lastStep_eq_entry_iff.mp h
  rw [(steps_sibling hsplit htemporary hrename).1] at hsteps
  cases asDirectory with
  | true =>
    have := congrArg List.getLast? hsteps
    simp [directoryStep, List.getLast?_append] at this
  | false =>
    have := congrArg List.getLast? hsteps
    simp [directoryStep, List.getLast?_append] at this
    exact ⟨this.symm, rfl⟩

/-- **A path and its sibling end in the same directory.**

**Proof sketch.** Up to steps that stay, the steps before the last name are the same, and a walk does
not notice steps that stay. -/
lemma lastStep_sibling (hsplit : path.splitName? = some (split, name))
    (htemporary : path.sibling? rename = some temporary) (hrename : IsStep (rename name))
    (hpath : fs.lastStep path = .ok (.entry parent mode entries n false))
    (hsibling : fs.lastStep temporary = .ok (.entry parent' mode' entries' n' false)) :
    parent' = parent ∧ n = name := by
  obtain ⟨-, before, hsteps, ⟨left, hwalked⟩, -⟩ := lastStep_eq_entry_iff.mp hpath
  obtain ⟨-, before', hsteps', ⟨left', hwalked'⟩, -⟩ := lastStep_eq_entry_iff.mp hsibling
  obtain ⟨hn, between, rfl, hbetween⟩ := before_eq_of_splitName? hsplit hsteps
  obtain ⟨hwalk, habsolute⟩ := steps_sibling hsplit htemporary hrename
  rw [hwalk] at hsteps'
  obtain rfl : split.filterMap step? = before' := List.append_inj_left' hsteps' rfl
  refine ⟨?_, hn⟩
  have hstart : startOf temporary fs.workingDirectory = startOf path fs.workingDirectory := by
    simp only [startOf, habsolute]
  rw [hstart] at hwalked'
  obtain ⟨more, mid, hfirst, hstays⟩ := hwalked.exists_mid _ _ rfl
  obtain rfl : parent' = mid := hwalked'.goal_unique hfirst
  exact hstays.goal_of_stays fun step hstep => .inl (hbetween step hstep)

/-- The steps to a sibling lead where the path itself has its last step. -/
lemma exists_walked_sibling (hsplit : path.splitName? = some (split, name))
    (htemporary : path.sibling? rename = some temporary) (hrename : IsStep (rename name))
    (hlast : fs.lastStep path = .ok (.entry parent mode entries n false)) :
    ∃ left, Walked fs true maxLinks (startOf temporary fs.workingDirectory)
      (split.filterMap step?) left parent := by
  obtain ⟨-, before, hsteps, ⟨left, hwalked⟩, -⟩ := lastStep_eq_entry_iff.mp hlast
  obtain ⟨-, between, rfl, hbetween⟩ := before_eq_of_splitName? hsplit hsteps
  obtain ⟨more, mid, hfirst, hstays⟩ := hwalked.exists_mid _ _ rfl
  obtain rfl : mid = parent := hstays.goal_of_stays fun step hstep => .inl (hbetween step hstep)
  have hstart : startOf temporary fs.workingDirectory = startOf path fs.workingDirectory := by
    simp only [startOf, (steps_sibling hsplit htemporary hrename).2]
  exact ⟨more, hstart ▸ hfirst⟩

end Siblings

end Detab.FileSystem
