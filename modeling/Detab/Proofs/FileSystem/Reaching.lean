import Detab.Proofs.FileSystem.LastStep
import Detab.Proofs.FileSystem.Reading

set_option relaxedAutoImplicit false
set_option autoImplicit false

/-!
# Reaching a file from the root

A path that leads to a file ends with a name, whichever way it takes and whatever link has that name.
Its canonical path takes another way: from the root, through every directory above the file. If the
working directory can be reached on such a way, every file that a path leads to can.

## Main definitions

* `Detab.FileSystem.Reachable` — **a place that can be reached from the root.**
* `Detab.FileSystem.Fits` — a path that is not too long, and has no name that is.

## Main results

* `Detab.Path.exists_splitName?_of_steps` — a path whose walk ends with a name has a file name.
* `Detab.FileSystem.WellFormed.exists_steps_of_file` — the walk to a file does.
* `Detab.FileSystem.WellFormed.exists_isLink` — a path that leads somewhere is a link or none.
* `Detab.FileSystem.Reachable.of_resolve` — what a path leads to can be reached.
* `Detab.FileSystem.lastStep_pathOf` — **the last step of a canonical path.**
-/

namespace Detab

namespace Path

/-- What the step to a name was made from. -/
lemma eq_of_step?_eq_name {piece : Bytes} {n : Name} (h : step? piece = some (.name n)) :
    piece = n ∧ piece ≠ dotDot := by
  unfold step? at h
  split_ifs at h with hempty hdot hdotDot
  · simp at h
  · simp at h
  · exact ⟨by simpa using h, hdotDot⟩

/-- A piece that counts is a step. -/
lemma exists_step?_of_not_idle {piece : Bytes} (h : isIdle piece = false) :
    ∃ step, step? piece = some step := by
  have hnot : piece ≠ [] ∧ piece ≠ dot := by simpa [isIdle] using h
  unfold step?
  rw [if_neg hnot.1, if_neg hnot.2]
  split_ifs <;> exact ⟨_, rfl⟩

/-- Where the last step is to a name, pieces at the end that do not count have made no step. -/
lemma filterMap_step?_of_idle {kept idle : List Bytes} {before : List Step} {n : Name}
    (hidle : ∀ piece ∈ idle, isIdle piece = true)
    (h : kept.filterMap step? ++ idle.filterMap step? = before ++ [.name n]) :
    kept.filterMap step? = before ++ [.name n] := by
  rcases List.eq_nil_or_concat' (idle.filterMap step?) with hnil | ⟨front, last, hconcat⟩
  · rwa [hnil, List.append_nil] at h
  · have hstay : last = .stay := eq_stay_of_idle hidle last (by simp [hconcat])
    rw [hconcat, ← List.append_assoc] at h
    have hend := (List.append_inj' h rfl).2
    simp [hstay] at hend

/-- Where the last piece counts and the last step is to a name, the piece is that name. -/
lemma eq_name_of_filterMap_step? (front : List Bytes) {last : Bytes} {before : List Step} {n : Name}
    (hcounts : isIdle last = false)
    (h : (front ++ [last]).filterMap step? = before ++ [.name n]) : last = n ∧ last ≠ dotDot := by
  obtain ⟨step, hstep⟩ := exists_step?_of_not_idle hcounts
  rw [List.filterMap_append, List.filterMap_cons_some hstep, List.filterMap_nil] at h
  obtain rfl : step = .name n := by simpa using (List.append_inj' h rfl).2
  exact eq_of_step?_eq_name hstep

/-- **A path whose walk ends with a name has that file name.**

**Proof sketch.** Pieces that do not count make no step to a name, so what is trimmed off the end has
made no step at all. The last step is that of the last piece that is left. -/
lemma exists_splitName?_of_steps {path : Path} {before : List Step} {n : Name}
    (h : steps path = before ++ [.name n]) : ∃ split, path.splitName? = some (split, n) := by
  obtain ⟨first, rest, hpieces⟩ := List.exists_cons_of_ne_nil (pieces_ne_nil path)
  obtain ⟨kept, idle, hrest, hidle, htrim, hlast⟩ := trimEnd_spec first rest
  have hsteps : (first :: kept).filterMap step? = before ++ [.name n] := by
    refine filterMap_step?_of_idle hidle ?_
    by_cases hslash : path.getLast? = some slash
    · have hend := congrArg List.getLast? h
      simp [steps, hslash] at hend
    · rw [steps, if_neg hslash, List.append_nil, hpieces, hrest] at h
      rw [← h, ← List.filterMap_append, List.cons_append]
  rw [splitName?, hpieces, htrim]
  rcases List.eq_nil_or_concat' kept with rfl | ⟨front, last, rfl⟩
  · cases hcounts : isIdle first with
    | true =>
      have hfirst : ∀ piece ∈ [first], isIdle piece = true := by simpa using hcounts
      have hstay := eq_stay_of_idle hfirst (.name n) (by simp [hsteps])
      simp at hstay
    | false =>
      obtain ⟨rfl, hno⟩ := eq_name_of_filterMap_step? [] hcounts hsteps
      exact ⟨[], by simp [hcounts, hno]⟩
  · obtain ⟨rfl, hno⟩ := eq_name_of_filterMap_step? (first :: front) (hlast last (by simp)) hsteps
    obtain ⟨second, others, hsecond⟩ :=
      List.exists_cons_of_ne_nil (List.append_ne_nil_of_right_ne_nil front (List.cons_ne_nil last []))
    rw [hsecond]
    simp only [← hsecond, List.getLast?_concat, Option.getD_some, if_neg hno]
    exact ⟨_, rfl⟩

/-- Only a path that is not empty has a walk. -/
lemma ne_nil_of_steps {path : Path} (h : steps path ≠ []) : path ≠ [] := by
  rintro rfl
  exact h rfl

/-- What is in a joined path is a slash, or in one of its pieces. -/
lemma eq_slash_or_mem_of_mem_ofPieces {ps : List Bytes} {b : UInt8} (h : b ∈ ofPieces ps) :
    b = slash ∨ ∃ piece ∈ ps, b ∈ piece := by
  induction ps with
  | nil => simp [ofPieces] at h
  | cons piece ps ih =>
    cases ps with
    | nil => exact .inr ⟨piece, by simp, h⟩
    | cons next ps =>
      rw [ofPieces] at h
      · rcases List.mem_append.mp h with h | h
        · exact .inr ⟨piece, by simp, h⟩
        · rcases List.mem_cons.mp h with h | h
          · exact .inl h
          · rcases ih h with hslash | ⟨p, hp, hb⟩
            · exact .inl hslash
            · exact .inr ⟨p, by simp [hp], hb⟩
      · simp

end Path

namespace FileSystem

open Detab.Path

variable {fs : FileSystem} {path : Path} {dots : Bool} {here goal parent place : Place}
  {links left : Nat} {mode : Mode} {entries : Directory} {n : Name}

/-! ## The last step to a file -/

/-- **A walk from a directory to a file ends with a name.**

**Proof sketch.** By the last step. A slash, a dot and two dots all lead to a directory, which is no
file; what is left is a name. -/
lemma Walked.exists_concat_name {path : List Step} (h : Walked fs dots links here path left goal)
    (hhere : fs.shape? here = some (.directory mode)) (hfile : fs.shape? goal = some .file) :
    ∃ before n, path = before ++ [.name n] := by
  rcases List.eq_nil_or_concat' path with rfl | ⟨before, last, rfl⟩
  · cases h with
    | done => simp [hhere] at hfile
  · obtain ⟨more, mid, -, hlast⟩ := h.exists_mid before [last] rfl
    have hfalse : ∀ {mode}, fs.shape? goal = some (.directory mode) → False := by
      intro mode hmode
      simp [hmode] at hfile
    cases hlast with
    | directory hpass hdone =>
      cases hdone
      exact (hfalse hpass.choose_spec.1).elim
    | stay hpass hdone =>
      cases hdone
      exact (hfalse hpass.choose_spec.1).elim
    | up hpass hdone =>
      cases hdone
      exact (hfalse (directory_dropLast hpass.choose_spec.1).choose_spec).elim
    | name => exact ⟨before, _, rfl⟩
    | link => exact ⟨before, _, rfl⟩

/-- **The walk of a path that leads to a file ends with a name.** -/
lemma WellFormed.exists_steps_of_file (wf : fs.WellFormed)
    (hgoal : fs.resolve .toFile path = .ok goal) (hfile : fs.shape? goal = some .file) :
    ∃ before n, steps path = before ++ [.name n] := by
  obtain ⟨-, left, hwalked⟩ := (resolve_eq_ok_iff rfl).mp hgoal
  obtain ⟨mode, hmode⟩ := wf.workingDirectory
  obtain ⟨m, hstart⟩ := directory_startOf (by rw [shape?, hmode]; rfl) path
  exact hwalked.exists_concat_name hstart hfile

/-- Where a walk leads through a last link, it leads to the link.

**Proof sketch.** The walk is cut before its last step. What comes before follows all links in
either way of walking, and the last step stops at the link if it is to one. -/
lemma exists_resolve_toEntry (hgoal : fs.resolve .toFile path = .ok goal) :
    ∃ place, fs.resolve .toEntry path = .ok place := by
  obtain ⟨hspelling, left, h⟩ := (resolve_eq_ok_iff rfl).mp hgoal
  have hwalked : Walked fs Walk.toEntry.searchDots maxLinks (startOf path fs.workingDirectory)
    (steps path) left goal := h
  rw [resolve, hspelling]
  dsimp only
  rcases List.eq_nil_or_concat' (steps path) with hnil | ⟨before, last, hconcat⟩
  · exact ⟨_, by rw [hnil, walkFrom_nil]⟩
  · obtain ⟨more, mid, hbefore, hlast⟩ := hwalked.exists_mid before [last] hconcat
    have hfirst : walkFrom fs .toEntry maxLinks (startOf path fs.workingDirectory) (before ++ [last]) =
        walkFrom fs .toEntry more mid [last] :=
      walkFrom_append hbefore (.inl (List.cons_ne_nil _ _))
    rw [hconcat, hfirst]
    cases hlast with
    | directory hpass _ => exact ⟨_, by rw [walkFrom_directory hpass, walkFrom_nil]⟩
    | stay hpass _ => exact ⟨_, by rw [walkFrom_stay hpass, walkFrom_nil]⟩
    | up hpass _ => exact ⟨_, by rw [walkFrom_up hpass, walkFrom_nil]⟩
    | name hpass hn hsolid _ => exact ⟨_, by rw [walkFrom_name hpass hn hsolid, walkFrom_nil]⟩
    | link hpass hn htarget _ => exact ⟨_, walkFrom_stop hpass hn htarget rfl⟩

/-- **A path that leads somewhere is a link or none.** -/
lemma WellFormed.exists_isLink (wf : fs.WellFormed) (hgoal : fs.resolve .toFile path = .ok goal) :
    ∃ link, fs.isLink path = .ok link := by
  obtain ⟨place, hplace⟩ := exists_resolve_toEntry hgoal
  cases hshape : fs.shape? place with
  | none => exact absurd (shape?_eq_none_iff.mp hshape) (wf.entry?_ne_none_of_resolve hplace)
  | some shape => exact ⟨shape.isLink, isLink_eq_ok_iff.mpr ⟨place, shape, hplace, hshape, rfl⟩⟩

/-! ## Places that can be reached from the root -/

/-- **A place that can be reached from the root:** every directory above it can be passed through. -/
def Reachable (fs : FileSystem) (place : Place) : Prop :=
  ∀ above n, above ++ [n] <+: place → fs.Passable true above

/-- The root can always be reached, as nothing is above it. -/
lemma reachable_nil (fs : FileSystem) : fs.Reachable [] := by
  intro above n hbelow
  simp at hbelow

/-- What is above a place that can be reached can be reached. -/
lemma Reachable.dropLast (h : fs.Reachable here) : fs.Reachable here.dropLast :=
  fun above n hbelow => h above n (hbelow.trans (List.dropLast_prefix here))

/-- A place in a directory that can be passed through can be reached when the directory can. -/
lemma Reachable.concat (h : fs.Reachable here) (hpass : fs.Passable true here) (n : Name) :
    fs.Reachable (here ++ [n]) := by
  intro above n' hbelow
  rcases List.prefix_concat_iff.mp hbelow with heq | hbelow
  · obtain ⟨rfl, -⟩ := List.append_inj' heq rfl
    exact hpass
  · exact h above n' hbelow

/-- A walk begins at a place that can be reached, when it begins at the root or below a place that
can. -/
lemma Reachable.startOf (h : fs.Reachable here) (path : Path) :
    fs.Reachable (FileSystem.startOf path here) := by
  unfold FileSystem.startOf
  split
  · exact reachable_nil fs
  · exact h

/-- **A walk stays where one can get from the root.** -/
lemma Walked.reachable {path : List Step} (h : Walked fs dots links here path left goal)
    (hhere : fs.Reachable here) : fs.Reachable goal := by
  induction h with
  | done => exact hhere
  | directory _ _ ih => exact ih hhere
  | stay _ _ ih => exact ih hhere
  | up _ _ ih => exact ih hhere.dropLast
  | name hpass _ _ _ ih => exact ih (hhere.concat hpass _)
  | link _ _ _ _ ih => exact ih (hhere.startOf _)

/-- What a path leads to can be reached from the root if the working directory can. -/
lemma Reachable.of_resolve (h : fs.Reachable fs.workingDirectory)
    (hgoal : fs.resolve .toFile path = .ok goal) : fs.Reachable goal := by
  obtain ⟨-, left, hwalked⟩ := (resolve_eq_ok_iff rfl).mp hgoal
  exact hwalked.reachable (h.startOf path)

/-- What can be reached is reached along its names. -/
lemma Reachable.walked {names : List Name} (h : fs.Reachable (here ++ names))
    (hsolid : fs.Solid (here ++ names)) (hnames : ∀ n ∈ names, n.length ≤ maxName) (links : Nat) :
    Walked fs true links here (names.map .name) links (here ++ names) := by
  induction names generalizing here with
  | nil =>
    rw [List.append_nil]
    exact .done
  | cons n names ih =>
    have hcut : here ++ n :: names = here ++ [n] ++ names := by simp
    rw [hcut] at h hsolid ⊢
    have hrest := ih h hsolid fun n' hn' => hnames n' (List.mem_cons_of_mem n hn')
    exact .name (h here n (List.prefix_append _ _)) (hnames n List.mem_cons_self) hsolid.of_append hrest

/-! ## Canonical paths -/

/-- A step that is not to a name that is too long. -/
def StepFits : Step → Prop
  | .name n => n.length ≤ maxName
  | .stay | .up | .directory => True

/-- Whether a step is to a name that is too long can be computed. -/
instance : (step : Step) → Decidable (StepFits step)
  | .name n => inferInstanceAs (Decidable (n.length ≤ maxName))
  | .stay | .up | .directory => inferInstanceAs (Decidable True)

/-- **A path that is not too long,** and has no name that is. -/
def Fits (path : Path) : Prop :=
  path.length ≤ maxPath ∧ ∀ step ∈ steps path, StepFits step

/-- Whether a path is too long, or has a name that is, can be computed. -/
instance (path : Path) : Decidable (Fits path) :=
  inferInstanceAs (Decidable (_ ∧ _))

/-- A path that is not too long, not empty, and without a zero byte can be looked up. -/
lemma spellingError?_eq_none (hzero : 0 ∉ path) (hne : path ≠ []) (hlength : path.length ≤ maxPath) :
    spellingError? path = none := by
  simp [spellingError?, hzero, hne, Nat.not_lt.mpr hlength]

/-- No zero byte is in a canonical path. -/
lemma zero_notMem_pathOf (hnames : ∀ n ∈ place, IsName n) : 0 ∉ pathOf place := by
  intro hzero
  rcases eq_slash_or_mem_of_mem_ofPieces hzero with h | ⟨piece, hpiece, hmem⟩
  · exact absurd h (by decide)
  · rcases List.mem_cons.mp hpiece with rfl | hpiece
    · simp at hmem
    · split at hpiece
      · obtain rfl := List.mem_singleton.mp hpiece
        simp at hmem
      · exact (hnames piece hpiece).2.2.2.2 hmem

/-- **The last step of the canonical path** of what can be reached from the root.

**Proof sketch.** The steps of the canonical path are the names of the place, in order. The
directories above can be passed through, as the place can be reached, so the walk leads to the
directory of the last name. -/
lemma lastStep_pathOf (wf : fs.WellFormed) (hreachable : fs.Reachable (parent ++ [n]))
    (hparent : fs.entry? parent = some (.directory mode entries)) (hn : entries.find? n ≠ none)
    (hfits : Fits (pathOf (parent ++ [n]))) :
    fs.lastStep (pathOf (parent ++ [n])) = .ok (.entry parent mode entries n false) := by
  obtain ⟨entry, hentry⟩ := Option.ne_none_iff_exists'.mp hn
  have hnames : ∀ n' ∈ parent ++ [n], IsName n' :=
    wf.isName ((entry?_concat hparent n).trans hentry)
  have hsteps := steps_pathOf hnames (by simp)
  have hlimits : ∀ n' ∈ parent ++ [n], n'.length ≤ maxName := by
    intro n' hn'
    exact hfits.2 (.name n') (by rw [hsteps]; exact List.mem_map_of_mem hn')
  have hne : pathOf (parent ++ [n]) ≠ [] := ne_nil_of_steps (by simp [hsteps])
  obtain ⟨m, hm, hsearch⟩ := hreachable parent n (List.prefix_refl _)
  obtain rfl : m = mode := by
    obtain ⟨e, he⟩ := shape?_eq_directory_iff.mp hm
    exact (Entry.directory.inj (Option.some.inj (he.symm.trans hparent))).1
  have habove : fs.Reachable ([] ++ parent) :=
    fun above n' hbelow => hreachable above n' (hbelow.trans (List.prefix_append _ _))
  have hwalked : Walked fs true maxLinks [] (parent.map .name) maxLinks ([] ++ parent) :=
    habove.walked (solid_of_directory (shape?_eq_directory_iff.mpr ⟨entries, hparent⟩))
      (fun n' hn' => hlimits n' (List.mem_append_left _ hn')) maxLinks
  have hstart : startOf (pathOf (parent ++ [n])) fs.workingDirectory = [] := by
    rw [startOf, isAbsolute_pathOf, if_pos rfl]
  refine lastStep_eq_entry_iff.mpr
    ⟨spellingError?_eq_none (zero_notMem_pathOf hnames) hne hfits.1, parent.map .name, ?_,
      ⟨maxLinks, by rw [hstart]; exact hwalked⟩, hparent, hsearch rfl, hlimits n (by simp)⟩
  rw [hsteps, List.map_append]
  rfl

end FileSystem

end Detab
