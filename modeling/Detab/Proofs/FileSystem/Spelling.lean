import Detab.FileSystem.Operations
import Detab.Proofs.FileSystem.WellFormed
import Mathlib.Data.List.Basic

set_option relaxedAutoImplicit false
set_option autoImplicit false

/-!
# What the text of a path says about its walk

A path is taken apart on its text alone when a file beside another one is to be named. This file
compares the walks of the two paths: up to steps that stay where they are, they part only with the
file name.

## Main results

* `Detab.Path.pieces_ofPieces`, `Detab.Path.ofPieces_pieces` — cutting and joining undo each other.
* `Detab.Path.splitName?_spec` — where the parent and the file name stand in a path.
* `Detab.Path.steps_of_splitName?`, `Detab.Path.steps_sibling` — **the walks of a path and of its
  sibling.**
* `Detab.FileSystem.steps_pathOf` — the walk of a canonical path.
-/

namespace Detab

namespace Path

/-! ## Pieces -/

/-- Every path has a first piece, if only an empty one. -/
lemma pieces_ne_nil (path : Path) : pieces path ≠ [] := by
  cases path with
  | nil => simp [pieces]
  | cons b rest =>
    unfold pieces
    split
    · simp
    · split <;> simp

/-- One more byte at the head begins a new piece when it is a slash, and belongs to the first piece
otherwise. -/
lemma pieces_cons (b : UInt8) {rest : Path} {first : Bytes} {others : List Bytes}
    (h : pieces rest = first :: others) :
    pieces (b :: rest) = if b = slash then [] :: first :: others else (b :: first) :: others := by
  rw [pieces, h]

/-- A text without a slash is one piece. -/
lemma pieces_of_notMem {piece : Bytes} (h : slash ∉ piece) : pieces piece = [piece] := by
  induction piece with
  | nil => rfl
  | cons b rest ih =>
    obtain ⟨hb, hrest⟩ := List.ne_and_not_mem_of_not_mem_cons h
    rw [pieces, ih hrest]
    simp [Ne.symm hb]

/-- A slash ends a piece. -/
lemma pieces_append_slash {piece : Bytes} (h : slash ∉ piece) (rest : Path) :
    pieces (piece ++ slash :: rest) = piece :: pieces rest := by
  induction piece with
  | nil =>
    obtain ⟨first, others, hrest⟩ := List.exists_cons_of_ne_nil (pieces_ne_nil rest)
    rw [List.nil_append, pieces_cons slash hrest, if_pos rfl, hrest]
  | cons b piece ih =>
    obtain ⟨hb, hpiece⟩ := List.ne_and_not_mem_of_not_mem_cons h
    rw [List.cons_append, pieces_cons b (ih hpiece), if_neg (Ne.symm hb)]

/-- Pieces that were joined are found again. -/
lemma pieces_ofPieces {ps : List Bytes} (hne : ps ≠ []) (h : ∀ piece ∈ ps, slash ∉ piece) :
    pieces (ofPieces ps) = ps := by
  induction ps with
  | nil => exact absurd rfl hne
  | cons piece ps ih =>
    cases ps with
    | nil => exact pieces_of_notMem (h piece (by simp))
    | cons next ps =>
      have hpiece := h piece (by simp)
      have hrest := ih (by simp) fun p hp => h p (by simp [hp])
      rw [ofPieces, pieces_append_slash hpiece, hrest]
      simp

/-- No piece holds a slash. -/
lemma slash_notMem_of_mem_pieces (path : Path) : ∀ piece ∈ pieces path, slash ∉ piece := by
  induction path with
  | nil => simp [pieces]
  | cons b rest ih =>
    obtain ⟨first, others, hrest⟩ := List.exists_cons_of_ne_nil (pieces_ne_nil rest)
    rw [pieces_cons b hrest]
    rw [hrest] at ih
    intro piece hpiece
    by_cases hb : b = slash
    · rw [if_pos hb] at hpiece
      rcases List.mem_cons.mp hpiece with rfl | hpiece
      · simp
      · exact ih piece hpiece
    · rw [if_neg hb] at hpiece
      rcases List.mem_cons.mp hpiece with rfl | hpiece
      · simpa [Ne.symm hb] using ih first (by simp)
      · exact ih piece (by simp [hpiece])

/-- A path is made of its pieces. -/
lemma ofPieces_pieces (path : Path) : ofPieces (pieces path) = path := by
  induction path with
  | nil => rfl
  | cons b rest ih =>
    obtain ⟨first, others, hrest⟩ := List.exists_cons_of_ne_nil (pieces_ne_nil rest)
    rw [pieces_cons b hrest]
    rw [hrest] at ih
    by_cases hb : b = slash
    · simp [hb, ofPieces, ih]
    · cases others with
      | nil => simpa [hb, ofPieces] using ih
      | cons next others => simpa [hb, ofPieces] using ih

/-- What is in a piece is in the path. -/
lemma mem_ofPieces {ps : List Bytes} {piece : Bytes} (hpiece : piece ∈ ps) {b : UInt8}
    (hb : b ∈ piece) : b ∈ ofPieces ps := by
  induction ps with
  | nil => simp at hpiece
  | cons first ps ih =>
    cases ps with
    | nil =>
      obtain rfl := List.mem_singleton.mp hpiece
      exact hb
    | cons next ps =>
      rw [ofPieces]
      · rcases List.mem_cons.mp hpiece with rfl | hpiece
        · simp [hb]
        · simp [ih hpiece]
      · simp

/-- A joined path starts from the root when its first piece is empty and not the only one. -/
lemma isAbsolute_ofPieces {first : Bytes} (h : slash ∉ first) (rest : List Bytes) :
    isAbsolute (ofPieces (first :: rest)) = decide (first = [] ∧ rest ≠ []) := by
  cases first with
  | nil => cases rest <;> simp [ofPieces, isAbsolute]
  | cons b first =>
    have hb : b ≠ slash := fun hb => h (by simp [hb])
    cases rest <;> simp [ofPieces, isAbsolute, hb]

/-- A joined path ends with its last piece. -/
lemma exists_ofPieces_concat (ps : List Bytes) (last : Bytes) :
    ∃ front, ofPieces (ps ++ [last]) = front ++ last := by
  induction ps with
  | nil => exact ⟨[], rfl⟩
  | cons piece ps ih =>
    obtain ⟨front, hfront⟩ := ih
    obtain ⟨next, others, hnext⟩ := List.exists_cons_of_ne_nil
      (List.append_ne_nil_of_right_ne_nil ps (List.cons_ne_nil last []))
    refine ⟨piece ++ slash :: front, ?_⟩
    rw [List.cons_append, hnext, ofPieces, ← hnext, hfront]
    · simp
    · simp

/-! ## Walks -/

/-- What can stand as the last piece of a path and be a step to a name. -/
def IsStep (piece : Bytes) : Prop :=
  piece ≠ [] ∧ piece ≠ dot ∧ piece ≠ dotDot ∧ slash ∉ piece

/-- What can be the name of an entry can also be a step in a path: it is not empty, it is not one or
two dots, and there is no slash in it. -/
lemma IsName.isStep {name : Name} (h : IsName name) : IsStep name :=
  ⟨h.1, h.2.1, h.2.2.1, h.2.2.2.1⟩

/-- A piece that can be a step to a name is read as this step. -/
lemma IsStep.step? {piece : Bytes} (h : IsStep piece) : step? piece = some (.name piece) := by
  simp [Path.step?, h.1, h.2.1, h.2.2.1]

/-- A step to a name was made from a piece, which is that name. -/
lemma mem_pieces_of_mem_steps {path : Path} {n : Name} (hn : .name n ∈ steps path) :
    n ∈ pieces path ∧ IsStep n := by
  rcases List.mem_append.mp hn with hn | hn
  · obtain ⟨piece, hpiece, hstep⟩ := List.mem_filterMap.mp hn
    unfold step? at hstep
    split_ifs at hstep with hempty hdot hdotDot
    · simp at hstep
    · simp at hstep
    · obtain rfl : piece = n := by simpa using hstep
      exact ⟨hpiece, hempty, hdot, hdotDot, slash_notMem_of_mem_pieces path piece hpiece⟩
  · split_ifs at hn <;> simp at hn

/-- A name on a path without zero bytes is what an entry can be called. -/
lemma isName_of_mem_steps {path : Path} (hzero : 0 ∉ path) {n : Name}
    (hn : .name n ∈ steps path) : IsName n := by
  obtain ⟨hmem, hempty, hdot, hdotDot, hslash⟩ := mem_pieces_of_mem_steps hn
  refine ⟨hempty, hdot, hdotDot, hslash, fun h => hzero ?_⟩
  rw [← ofPieces_pieces path]
  exact mem_ofPieces hmem h

/-- The walk of a path whose last piece is a step to a name. -/
lemma steps_ofPieces_concat {ps : List Bytes} (hps : ∀ piece ∈ ps, slash ∉ piece) {last : Bytes}
    (hlast : IsStep last) :
    steps (ofPieces (ps ++ [last])) = ps.filterMap step? ++ [.name last] := by
  have hall : ∀ piece ∈ ps ++ [last], slash ∉ piece := by
    intro piece hpiece
    rcases List.mem_append.mp hpiece with hpiece | hpiece
    · exact hps piece hpiece
    · rw [List.mem_singleton.mp hpiece]
      exact hlast.2.2.2
  have hend : (ofPieces (ps ++ [last])).getLast? ≠ some slash := by
    obtain ⟨front, hfront⟩ := exists_ofPieces_concat ps last
    rw [hfront, List.getLast?_append_of_ne_nil _ hlast.1]
    exact fun h => hlast.2.2.2 (List.mem_of_getLast? h)
  rw [steps, pieces_ofPieces (by simp) hall, if_neg hend]
  simp [hlast.step?]

/-- A piece that does not count is no step, or one that stays. -/
lemma eq_stay_of_idle {ps : List Bytes} (h : ∀ piece ∈ ps, isIdle piece = true) :
    ∀ step ∈ ps.filterMap step?, step = .stay := by
  intro step hstep
  obtain ⟨piece, hpiece, hstep⟩ := List.mem_filterMap.mp hstep
  have hidle : piece = [] ∨ piece = dot := by simpa [isIdle] using h piece hpiece
  rcases hidle with rfl | rfl
  · simp [step?] at hstep
  · simpa [step?, dot, dotDot, eq_comm] using hstep

/-! ## Parents and file names -/

/-- Trimming keeps the first piece and takes pieces off the end that do not count. -/
lemma trimEnd_spec (first : Bytes) (rest : List Bytes) :
    ∃ kept idle, rest = kept ++ idle ∧ (∀ piece ∈ idle, isIdle piece = true) ∧
      trimEnd (first :: rest) = first :: kept ∧
      ∀ last, kept.getLast? = some last → isIdle last = false := by
  refine ⟨(rest.reverse.dropWhile isIdle).reverse, (rest.reverse.takeWhile isIdle).reverse, ?_,
    ?_, rfl, ?_⟩
  · rw [← List.reverse_append, List.takeWhile_append_dropWhile, List.reverse_reverse]
  · intro piece hpiece
    exact List.all_eq_true.mp List.all_takeWhile piece (List.mem_reverse.mp hpiece)
  · intro last hlast
    rw [List.getLast?_reverse] at hlast
    have hnot := List.head?_dropWhile_not isIdle rest.reverse
    rw [hlast] at hnot
    simpa using hnot

/-- **Where the parent and the file name stand in a path:** only pieces that do not count are
between them, and behind the name.

**Proof sketch.** Pieces that do not count are taken off the end, and what is left ends with the
name, unless only the first piece is left. Before the name the same is done once more, for the
parent. -/
lemma splitName?_spec {path : Path} {parent : List Bytes} {name : Name}
    (h : path.splitName? = some (parent, name)) :
    ∃ between behind, pieces path = parent ++ between ++ name :: behind ∧
      (∀ piece ∈ between, isIdle piece = true) ∧ (∀ piece ∈ behind, isIdle piece = true) ∧
      IsStep name ∧ (parent = [] → between = []) := by
  obtain ⟨first, rest, hpieces⟩ := List.exists_cons_of_ne_nil (pieces_ne_nil path)
  obtain ⟨kept, behind, hrest, hbehind, htrim, hlast⟩ := trimEnd_spec first rest
  have hslash : ∀ piece ∈ first :: rest, slash ∉ piece :=
    hpieces ▸ slash_notMem_of_mem_pieces path
  rw [splitName?, hpieces, htrim] at h
  rcases List.eq_nil_or_concat' kept with rfl | ⟨front, last, rfl⟩
  · -- the first piece is the only one that counts
    simp only at h
    split_ifs at h with hno
    obtain ⟨rfl, rfl⟩ := Prod.mk.inj (Option.some.inj h)
    have hno' : ¬ (first = [] ∨ first = dot) ∧ first ≠ dotDot := by
      simpa [isIdle, not_or] using hno
    refine ⟨[], behind, by rw [hpieces, hrest]; rfl, by simp, hbehind,
      ⟨fun h => hno'.1 (.inl h), fun h => hno'.1 (.inr h), hno'.2, hslash first (by simp)⟩, by simp⟩
  · have hcons : ∃ second others, front ++ [last] = second :: others :=
      List.exists_cons_of_ne_nil (by simp)
    obtain ⟨second, others, hsecond⟩ := hcons
    rw [hsecond] at h
    simp only at h
    rw [← hsecond] at h
    split_ifs at h with hno
    obtain ⟨hparent, hname⟩ := Prod.mk.inj (Option.some.inj h)
    simp only [List.getLast?_concat, Option.getD_some] at hname hno
    rw [List.dropLast_concat] at hparent
    obtain ⟨kept', between, hfront, hbetween, htrim', -⟩ := trimEnd_spec first front
    rw [htrim'] at hparent
    obtain rfl := hparent
    obtain rfl := hname
    have hidle : isIdle last = false := hlast last (by simp)
    have hidle' : ¬ (last = [] ∨ last = dot) := by simpa [isIdle] using hidle
    refine ⟨between, behind, ?_, hbetween, hbehind,
      ⟨fun h => hidle' (.inl h), fun h => hidle' (.inr h), hno, hslash last (by simp [hrest])⟩,
      by simp⟩
    rw [hpieces, hrest, hfront]
    simp

/-- The walk of a path that has a file name. -/
lemma steps_of_splitName? {path : Path} {parent : List Bytes} {name : Name}
    (h : path.splitName? = some (parent, name)) :
    ∃ between behind, steps path =
        parent.filterMap step? ++ between ++ .name name :: (behind ++
          if path.getLast? = some slash then [.directory] else []) ∧
      (∀ step ∈ between, step = .stay) ∧ ∀ step ∈ behind, step = .stay := by
  obtain ⟨between, behind, hpieces, hbetween, hbehind, hname, -⟩ := splitName?_spec h
  refine ⟨between.filterMap step?, behind.filterMap step?, ?_, eq_stay_of_idle hbetween,
    eq_stay_of_idle hbehind⟩
  simp [steps, hpieces, hname.step?]

/-- No piece of the parent holds a slash. -/
lemma slash_notMem_of_splitName? {path : Path} {parent : List Bytes} {name : Name}
    (h : path.splitName? = some (parent, name)) : ∀ piece ∈ parent, slash ∉ piece := by
  obtain ⟨between, behind, hpieces, -⟩ := splitName?_spec h
  exact fun piece hpiece => slash_notMem_of_mem_pieces path piece (by simp [hpieces, hpiece])

/-- The pieces of a sibling are those of the parent, and the new name. -/
lemma pieces_sibling {rename : Name → Name} {path temporary : Path} {parent : List Bytes}
    {name : Name} (hsplit : path.splitName? = some (parent, name))
    (h : path.sibling? rename = some temporary) (hrename : IsStep (rename name)) :
    pieces temporary = parent ++ [rename name] := by
  obtain rfl : ofPieces (parent ++ [rename name]) = temporary := by
    simpa [sibling?, hsplit] using h
  refine pieces_ofPieces (by simp) fun piece hpiece => ?_
  rcases List.mem_append.mp hpiece with hpiece | hpiece
  · exact slash_notMem_of_splitName? hsplit piece hpiece
  · rw [List.mem_singleton.mp hpiece]
    exact hrename.2.2.2

/-- **The walk of a sibling:** along the parent's pieces, and then to the new name. It starts where
the walk of the path itself starts.

**Proof sketch.** The sibling is spelled by the pieces of the parent and the new name, so its steps
can be read off. Whether it begins at the root depends on the first piece, which is that of the
path, or the name itself. -/
lemma steps_sibling {rename : Name → Name} {path temporary : Path} {parent : List Bytes}
    {name : Name} (hsplit : path.splitName? = some (parent, name))
    (h : path.sibling? rename = some temporary) (hrename : IsStep (rename name)) :
    steps temporary = parent.filterMap step? ++ [.name (rename name)] ∧
      isAbsolute temporary = isAbsolute path := by
  obtain rfl : ofPieces (parent ++ [rename name]) = temporary := by
    simpa [sibling?, hsplit] using h
  obtain ⟨between, behind, hpieces, -, -, hname, hbare⟩ := splitName?_spec hsplit
  have hparent := slash_notMem_of_splitName? hsplit
  refine ⟨steps_ofPieces_concat hparent hrename, ?_⟩
  rw [← ofPieces_pieces path, hpieces]
  cases parent with
  | nil =>
    rw [hbare rfl, List.nil_append, isAbsolute_ofPieces hrename.2.2.2, List.nil_append,
      List.nil_append, isAbsolute_ofPieces hname.2.2.2]
    simp [hrename.1, hname.1]
  | cons first parent =>
    have hfirst := hparent first (by simp)
    simp only [List.cons_append]
    rw [isAbsolute_ofPieces hfirst, isAbsolute_ofPieces hfirst]
    simp

end Path

namespace FileSystem

open Detab.Path

/-- The walk of a canonical path goes along the names of its place. -/
lemma steps_pathOf {place : Place} (h : ∀ n ∈ place, IsName n) (hne : place ≠ []) :
    steps (pathOf place) = place.map .name := by
  obtain ⟨front, last, rfl⟩ := (List.eq_nil_or_concat' place).resolve_left hne
  have hslash : ∀ piece ∈ [] :: front, slash ∉ piece := by
    intro piece hpiece
    rcases List.mem_cons.mp hpiece with rfl | hpiece
    · simp
    · exact (h piece (by simp [hpiece])).isStep.2.2.2
  have hfront : front.filterMap step? = front.map .name := by
    rw [← List.filterMap_eq_map]
    refine List.filterMap_congr fun n hn => ?_
    rw [(h n (by simp [hn])).isStep.step?]
    rfl
  have hsteps := steps_ofPieces_concat hslash (h last (by simp)).isStep
  simpa [pathOf, step?, hfront] using hsteps

/-- The canonical path of a place begins at the root. -/
lemma isAbsolute_pathOf (place : Place) : isAbsolute (pathOf place) = true := by
  rw [pathOf, isAbsolute_ofPieces (by simp)]
  cases place <;> simp

end FileSystem

end Detab
