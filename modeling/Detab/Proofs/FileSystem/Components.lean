import Detab.Proofs.FileSystem.Spelling

set_option relaxedAutoImplicit false
set_option autoImplicit false

/-!
# The components of a path

As a name for a file, a path is a list of components. Slashes only part them, however many there are,
and a single dot counts only at the beginning of a path that does not start from the root. The parent
of a path is what stands before its last component, and its file name is that component, if it is a
name.

## Main definitions

* `Detab.Path.Component`, `Detab.Path.components` — **the components of a path.**

## Main results

* `Detab.Path.fileName?_eq_some_iff` — the file name is the last component.
* `Detab.Path.splitName?_eq_none_iff` — **which paths have no file name.**
* `Detab.Path.components_sibling` — **the sibling of a path has the same parent.**
-/

namespace Detab.Path

variable {path temporary : Path} {piece last : Bytes} {front behind parent : List Bytes} {name : Name}
  {rename : Name → Name}

/-- A component of a path. -/
inductive Component where
  /-- The root, at the beginning. -/
  | root
  /-- A single dot, at the beginning. -/
  | here
  /-- Two dots. -/
  | up
  /-- Any other piece. -/
  | name (n : Name)
  deriving DecidableEq, Repr

/-- The component that a piece is, wherever it stands. -/
def component? (piece : Bytes) : Option Component :=
  if isIdle piece then none else if piece = dotDot then some .up else some (.name piece)

/-- The component that a path can only begin with. -/
def beginning? (path : Path) : Option Component :=
  if isAbsolute path then some .root
  else if (pieces path).head? = some dot then some .here
  else none

/-- **The components of a path.** -/
def components (path : Path) : List Component :=
  (beginning? path).toList ++ (pieces path).filterMap component?

/-! ## Pieces and components -/

/-- A piece that is a step to a name is the component of this name. -/
lemma IsStep.component?_eq (h : IsStep piece) : component? piece = some (.name piece) := by
  simp [component?, isIdle, h.1, h.2.1, h.2.2.1]

/-- Pieces that do not count, which are empty ones and single dots, give no components. -/
lemma filterMap_component?_of_idle {ps : List Bytes} (h : ∀ piece ∈ ps, isIdle piece = true) :
    ps.filterMap component? = [] :=
  List.filterMap_eq_nil_iff.mpr fun piece hpiece => if_pos (h piece hpiece)

/-- The last piece that counts is the last component. -/
lemma components_of_pieces (hpieces : pieces path = front ++ last :: behind)
    (hbehind : ∀ piece ∈ behind, isIdle piece = true) {c : Component}
    (hlast : component? last = some c) :
    components path = ((beginning? path).toList ++ front.filterMap component?) ++ [c] := by
  simp [components, hpieces, hlast, filterMap_component?_of_idle hbehind]

/-- The components of a path that has a file name: those of its parent, and that name. -/
lemma components_of_splitName? (h : path.splitName? = some (parent, name)) :
    components path = ((beginning? path).toList ++ parent.filterMap component?) ++ [.name name] := by
  obtain ⟨between, behind, hpieces, hbetween, hbehind, hname, -⟩ := splitName?_spec h
  rw [components_of_pieces hpieces hbehind hname.component?_eq, List.filterMap_append,
    filterMap_component?_of_idle hbetween, List.append_nil]

/-! ## Paths without a file name -/

/-- The last component of a path that has no file name.

**Proof sketch.** By how many pieces count. If only the first one may, it is empty, a dot or two
dots, and the path is empty, the root, or such a piece. Otherwise the last piece that counts is two
dots, since any other one would be a name. -/
lemma getLast?_components_of_splitName? (h : path.splitName? = none) :
    path = [] ∨ ∃ c, (components path).getLast? = some c ∧ (c = .root ∨ c = .here ∨ c = .up) := by
  obtain ⟨first, rest, hpieces⟩ := List.exists_cons_of_ne_nil (pieces_ne_nil path)
  obtain ⟨kept, behind, rfl, hbehind, htrim, -⟩ := trimEnd_spec first rest
  have hpath : path = ofPieces (first :: (kept ++ behind)) := by rw [← hpieces, ofPieces_pieces]
  have hfirst : slash ∉ first := slash_notMem_of_mem_pieces path first (by simp [hpieces])
  rw [splitName?, hpieces, htrim] at h
  rcases List.eq_nil_or_concat' kept with rfl | ⟨front, last, rfl⟩
  · -- only the first piece may count
    rw [List.nil_append] at hpieces hpath
    have habsolute : isAbsolute path = decide (first = [] ∧ behind ≠ []) := by
      rw [hpath, isAbsolute_ofPieces hfirst]
    simp only at h
    split_ifs at h with hno
    have hno' : first = [] ∨ first = dot ∨ first = dotDot := by
      simpa [isIdle, or_assoc] using hno
    rcases hno' with rfl | rfl | rfl
    · by_cases hbare : behind = []
      · exact .inl (by rw [hpath, hbare]; rfl)
      · refine .inr ⟨.root, ?_, .inl rfl⟩
        simp [components, beginning?, habsolute, hbare, hpieces, component?, isIdle,
          filterMap_component?_of_idle hbehind]
    · refine .inr ⟨.here, ?_, .inr (.inl rfl)⟩
      have hdot : dot ≠ [] := by decide
      simp [components, beginning?, habsolute, hdot, hpieces, component?, isIdle,
        filterMap_component?_of_idle hbehind]
    · have hpieces' : pieces path = [] ++ dotDot :: behind := hpieces
      have hup := components_of_pieces hpieces' hbehind (c := .up) (by decide)
      exact .inr ⟨.up, by rw [hup, List.getLast?_concat], .inr (.inr rfl)⟩
  · -- a piece behind the first one counts, and it can only be two dots
    have hcons : ∃ second others, front ++ [last] = second :: others :=
      List.exists_cons_of_ne_nil (by simp)
    obtain ⟨second, others, hsecond⟩ := hcons
    rw [hsecond] at h
    simp only at h
    rw [← hsecond, List.getLast?_concat, Option.getD_some] at h
    split_ifs at h with hup
    have hpieces' : pieces path = (first :: front) ++ last :: behind := by simp [hpieces]
    have hlast := components_of_pieces hpieces' hbehind (c := .up) (by rw [hup]; decide)
    exact .inr ⟨.up, by rw [hlast, List.getLast?_concat], .inr (.inr rfl)⟩

/-- **The file name is the last component,** if that is a name. -/
lemma fileName?_eq_some_iff :
    path.fileName? = some name ↔ (components path).getLast? = some (.name name) := by
  rw [fileName?]
  rcases hsplit : path.splitName? with _ | ⟨parent, name'⟩
  · rcases getLast?_components_of_splitName? hsplit with rfl | ⟨c, hlast, hc⟩
    · have hnil : components [] = [] := by decide
      simp [hnil]
    · rw [hlast]
      rcases hc with rfl | rfl | rfl <;> simp
  · rw [components_of_splitName? hsplit, List.getLast?_concat]
    simp

/-- **Which paths have no file name:** the empty one, and those whose last component is no name. -/
lemma splitName?_eq_none_iff :
    path.splitName? = none ↔
      path = [] ∨ ∃ c, (components path).getLast? = some c ∧ (c = .root ∨ c = .here ∨ c = .up) := by
  refine ⟨getLast?_components_of_splitName?, fun h => ?_⟩
  rcases hsplit : path.splitName? with _ | ⟨parent, name⟩
  · rfl
  · have hlast : (components path).getLast? = some (.name name) :=
      fileName?_eq_some_iff.mp (by rw [fileName?, hsplit]; rfl)
    rcases h with rfl | ⟨c, hc, hnameless⟩
    · have hnil : splitName? [] = none := by decide
      rw [hnil] at hsplit
      cases hsplit
    · obtain rfl := Option.some.inj (hlast.symm.trans hc)
      simp at hnameless

/-! ## Siblings -/

/-- A path and its sibling begin in the same way. -/
lemma beginning?_sibling (hsplit : path.splitName? = some (parent, name))
    (h : path.sibling? rename = some temporary) (hrename : IsStep (rename name)) :
    beginning? temporary = beginning? path := by
  obtain ⟨between, behind, hpieces, -, -, hname, hbare⟩ := splitName?_spec hsplit
  have hhead : (pieces temporary).head? = some dot ↔ (pieces path).head? = some dot := by
    rw [pieces_sibling hsplit h hrename, hpieces]
    cases parent with
    | nil =>
      rw [hbare rfl]
      simp [hrename.2.1, hname.2.1]
    | cons first parent => simp
  simp only [beginning?, (steps_sibling hsplit h hrename).2, hhead]

/-- **The sibling of a path has the same parent,** and the new name for a file name. -/
lemma components_sibling (hsplit : path.splitName? = some (parent, name))
    (h : path.sibling? rename = some temporary) (hrename : IsStep (rename name)) :
    components temporary = (components path).dropLast ++ [.name (rename name)] := by
  rw [components_of_pieces (pieces_sibling hsplit h hrename) (by simp) hrename.component?_eq,
    components_of_splitName? hsplit, List.dropLast_concat, beginning?_sibling hsplit h hrename]

end Detab.Path
