import Detab.Glob.Match
import Mathlib.Data.List.Infix
import Mathlib.Tactic.Common

set_option relaxedAutoImplicit false
set_option autoImplicit false

/-!
# The meaning of tokens

A name matches some tokens when it can be cut into consecutive pieces, each of which is one that its
token may take. Nothing in this says how the cut is found. The rows of `Glob.row` keep all cuts at
once.

## Main definitions

* `Detab.Glob.Member.Holds` — what is in a member of a set.
* `Detab.Glob.Token.Takes` — **the pieces that a token may take.**
* `Detab.Glob.Fits`, `Detab.Glob.Matched` — pieces for some tokens, and names that are made of such
  pieces.
* `Detab.Glob.admits` — what a row says of the whole name.

## Main results

* `Detab.Glob.matched_run_iff`, `matched_tree_iff`, `matched_single_iff` — what the first token leaves
  to the others.
* `Detab.Glob.row_cons` — the rows of a name are about its rests.
* `Detab.Glob.admits_iff_matched` — **the rows say which names can be cut.**

## Design

A name of a file has no slash. So of the tokens for whole components, one that is followed by others
takes nothing, and the last one takes everything.
-/

namespace Detab.Glob

variable {c : Char} {name rest piece : List Char} {token : Token} {tokens later : List Token}
  {isLast : Prop}

/-! ## Pieces -/

/-- **What is in a member of a set.** A range from high to low holds nothing. -/
def Member.Holds (c : Char) : Member → Prop
  | .single d => c = d
  | .range low high => low ≤ c ∧ c ≤ high

/-- Whether a character is in a member of a set can be computed. -/
instance (c : Char) : (m : Member) → Decidable (m.Holds c)
  | .single _ => inferInstanceAs (Decidable (_ = _))
  | .range _ _ => inferInstanceAs (Decidable (_ ∧ _))

/-- **The pieces that a token may take** of a name without slashes. -/
def Token.Takes (isLast : Prop) (piece : List Char) : Token → Prop
  | .literal c => piece = [c]
  | .any => ∃ c, piece = [c]
  | .oneOf set => ∃ c, piece = [c] ∧ ∃ m ∈ set, m.Holds c
  | .noneOf set => ∃ c, piece = [c] ∧ ∀ m ∈ set, ¬ m.Holds c
  | .run => True
  | .tree => isLast ∨ piece = []

/-- **One piece for each token,** in order. -/
inductive Fits : List Token → List (List Char) → Prop
  | nil : Fits [] []
  | cons {token : Token} {later : List Token} {piece : List Char} {pieces : List (List Char)} :
      token.Takes (later = []) piece → Fits later pieces → Fits (token :: later) (piece :: pieces)

/-- **A name that can be cut** into pieces for some tokens. -/
def Matched (tokens : List Token) (name : List Char) : Prop :=
  ∃ pieces, pieces.flatten = name ∧ Fits tokens pieces

/-- A token that stands for one character. -/
def Token.IsSingle (token : Token) : Prop :=
  token ≠ .run ∧ token ≠ .tree

/-- Tokens are of three kinds: a run, whole components, or one character. -/
lemma Token.isSingle_or (token : Token) : token = .run ∨ token = .tree ∨ token.IsSingle := by
  cases token <;> simp [Token.IsSingle]

/-- The test for a member of a set is right. -/
lemma contains_iff {m : Member} : m.contains c = true ↔ m.Holds c := by
  cases m <;> simp [Member.contains, Member.Holds]

/-- A token for one character takes the characters that it accepts. -/
lemma takes_iff_of_isSingle (h : token.IsSingle) :
    token.Takes isLast piece ↔ ∃ c, piece = [c] ∧ token.accepts c = true := by
  cases token with
  | literal d =>
    constructor
    · rintro rfl
      exact ⟨d, rfl, beq_self_eq_true d⟩
    · rintro ⟨c, rfl, hc⟩
      exact congrArg ([·]) (beq_iff_eq.mp hc)
  | any => simp [Token.Takes, Token.accepts]
  | oneOf set => simp [Token.Takes, Token.accepts, contains_iff]
  | noneOf set => simp [Token.Takes, Token.accepts, ← contains_iff]
  | run => exact absurd rfl h.1
  | tree => exact absurd rfl h.2

/-! ## Cutting -/

/-- Without tokens only the empty name can be cut into pieces. -/
lemma matched_nil_iff : Matched [] name ↔ name = [] := by
  constructor
  · rintro ⟨pieces, rfl, hfits⟩
    cases hfits
    rfl
  · rintro rfl
    exact ⟨[], rfl, .nil⟩

/-- The piece of the first token is at the head of the name. -/
lemma matched_cons_iff : Matched (token :: later) name ↔
    ∃ piece rest, name = piece ++ rest ∧ token.Takes (later = []) piece ∧ Matched later rest := by
  constructor
  · rintro ⟨pieces, rfl, hfits⟩
    cases hfits with
    | @cons _ _ piece pieces htakes hfits =>
      exact ⟨piece, pieces.flatten, rfl, htakes, pieces, rfl, hfits⟩
  · rintro ⟨piece, rest, rfl, htakes, pieces, rfl, hfits⟩
    exact ⟨piece :: pieces, rfl, .cons htakes hfits⟩

/-- A token for one character takes the first one of the name, if it accepts it; the rest is for the
tokens behind it. -/
lemma matched_single_iff (h : token.IsSingle) : Matched (token :: later) name ↔
    ∃ c rest, name = c :: rest ∧ token.accepts c = true ∧ Matched later rest := by
  rw [matched_cons_iff]
  constructor
  · rintro ⟨piece, rest, rfl, htakes, hlater⟩
    obtain ⟨c, rfl, hc⟩ := (takes_iff_of_isSingle h).mp htakes
    exact ⟨c, rest, rfl, hc, hlater⟩
  · rintro ⟨c, rest, rfl, hc, hlater⟩
    exact ⟨[c], rest, rfl, (takes_iff_of_isSingle h).mpr ⟨c, rfl, hc⟩, hlater⟩

/-- A run takes any number of characters, so some rest of the name is left for the tokens behind it.
-/
lemma matched_run_iff : Matched (.run :: later) name ↔ ∃ rest, rest <:+ name ∧ Matched later rest := by
  rw [matched_cons_iff]
  constructor
  · rintro ⟨piece, rest, rfl, -, hlater⟩
    exact ⟨rest, List.suffix_append piece rest, hlater⟩
  · rintro ⟨rest, ⟨piece, rfl⟩, hlater⟩
    exact ⟨piece, rest, rfl, trivial, hlater⟩

/-- A run takes nothing of the empty name. -/
lemma matched_run_nil_iff : Matched (.run :: later) [] ↔ Matched later [] := by
  rw [matched_run_iff]
  simp only [List.suffix_nil, exists_eq_left]

/-- A run at a first character either ends there, or takes it and goes on. This is the recursion
that both matchers follow. -/
lemma matched_run_cons_iff :
    Matched (.run :: later) (c :: rest) ↔ Matched later (c :: rest) ∨ Matched (.run :: later) rest := by
  rw [matched_run_iff, matched_run_iff]
  simp only [List.suffix_cons_iff, or_and_right, exists_or, exists_eq_left]

/-- In a name, which has no slash, whole components are nothing or, as the last token, everything.
-/
lemma matched_tree_iff : Matched (.tree :: later) name ↔ later = [] ∨ Matched later name := by
  rw [matched_cons_iff]
  constructor
  · rintro ⟨piece, rest, rfl, hlast | rfl, hlater⟩
    · exact .inl hlast
    · exact .inr hlater
  · rintro (rfl | hlater)
    · exact ⟨name, [], (List.append_nil name).symm, .inl rfl, matched_nil_iff.mpr rfl⟩
    · exact ⟨[], name, rfl, .inr rfl, hlater⟩

/-- Tokens that match the empty name match every name, as the last of them takes any run. -/
lemma Matched.of_nil (h : Matched later []) (hlater : later ≠ []) : Matched later name := by
  induction later with
  | nil => exact absurd rfl hlater
  | cons token later ih =>
    obtain rfl | rfl | hsingle := token.isSingle_or
    · obtain ⟨rest, hrest, hmatched⟩ := matched_run_iff.mp h
      rw [List.suffix_nil.mp hrest] at hmatched
      exact matched_run_iff.mpr ⟨[], List.nil_suffix, hmatched⟩
    · rw [matched_tree_iff] at h ⊢
      by_cases hnil : later = []
      · exact .inl hnil
      · exact .inr (ih (h.resolve_left hnil) hnil)
    · obtain ⟨c, rest, hname, -⟩ := (matched_single_iff hsingle).mp h
      simp at hname

/-! ## Rows -/

/-- Whether the row of a name says that the tokens match the whole name. -/
def admits (tokens : List Token) (name : List Char) : Bool :=
  (row name tokens).headD false

/-- The row of a token for one character is made from the row of the tokens behind it by one step.
-/
lemma row_single (h : token.IsSingle) :
    row name (token :: later) = stepRow (fun c => token.accepts c) name (row name later) := by
  cases token with
  | run => exact absurd rfl h.1
  | tree => exact absurd rfl h.2
  | literal _ | any | oneOf _ | noneOf _ => rfl

/-- The row of a run. -/
lemma row_run : row name (.run :: later) = runRow (row name later) :=
  rfl

/-- The row of whole components. -/
lemma row_tree : row name (.tree :: later) = treeRow later.isEmpty name (row name later) :=
  rfl

/-- The row of the empty name has one entry. -/
lemma row_nil (tokens : List Token) : row [] tokens = [admits tokens []] := by
  induction tokens with
  | nil => rfl
  | cons token later ih =>
    obtain rfl | rfl | hsingle := token.isSingle_or
    · rw [admits, row_run, ih]
      rfl
    · rw [admits, row_tree, ih]
      cases later.isEmpty <;> rfl
    · rw [admits, row_single hsingle, stepRow.eq_def]
      rfl

/-- **The rows of a name are about its rests.** -/
lemma row_cons (c : Char) (rest : List Char) (tokens : List Token) :
    row (c :: rest) tokens = admits tokens (c :: rest) :: row rest tokens := by
  induction tokens with
  | nil => rfl
  | cons token later ih =>
    obtain rfl | rfl | hsingle := token.isSingle_or
    · rw [admits, row_run, row_run, ih]
      rfl
    · rw [admits, row_tree, row_tree, ih]
      cases later.isEmpty <;> rfl
    · rw [admits, row_single hsingle, row_single hsingle, ih]
      rfl

/-- Without tokens the row admits the empty name alone. -/
lemma admits_nil_iff : admits [] name = true ↔ name = [] := by
  cases name <;> simp [admits, row, emptyRow]

/-- A token for one character does not admit the empty name. -/
lemma admits_single_nil (h : token.IsSingle) : admits (token :: later) [] = false := by
  rw [admits, row_single h, stepRow.eq_def]
  rfl

/-- A token for one character admits a name if it accepts the first character, and the tokens behind
it admit the rest. -/
lemma admits_single_cons (h : token.IsSingle) :
    admits (token :: later) (c :: rest) = (token.accepts c && admits later rest) := by
  rw [admits, row_single h, row_cons]
  rfl

/-- A run admits the empty name if the tokens behind it do. -/
lemma admits_run_nil : admits (.run :: later) [] = admits later [] := by
  rw [admits, row_run, row_nil]
  exact Bool.or_false _

/-- A run admits a name if the tokens behind it do, or if it admits the name without its first
character. -/
lemma admits_run_cons :
    admits (.run :: later) (c :: rest) = (admits later (c :: rest) || admits (.run :: later) rest) := by
  rw [admits, row_run, row_cons]
  rfl

/-- **A run admits a name** exactly when the tokens behind it admit some rest of it; by induction on
the name. -/
lemma admits_run_iff :
    admits (.run :: later) name = true ↔ ∃ rest, rest <:+ name ∧ admits later rest = true := by
  induction name with
  | nil => simp [admits_run_nil]
  | cons c rest ih =>
    rw [admits_run_cons, Bool.or_eq_true, ih]
    simp only [List.suffix_cons_iff, or_and_right, exists_or, exists_eq_left]

/-- Without a slash nothing can be jumped over. -/
lemma headD_slashRow (hslash : '/' ∉ name) : (slashRow name (row name tokens)).headD false = false := by
  induction name with
  | nil =>
    rw [slashRow.eq_def]
    rfl
  | cons c rest ih =>
    obtain ⟨hc, hrest⟩ := not_or.mp (List.mem_cons.not.mp hslash)
    rw [row_cons, slashRow]
    change ((c == '/') && _ || (slashRow rest (row rest tokens)).headD false) = false
    rw [ih hrest, beq_false_of_ne (Ne.symm hc)]
    rfl

/-- Jumps that do not begin at the head do not change the head of a row. -/
lemma headD_zipWith_or {row jumps : List Bool} (h : jumps.headD false = false) (hne : jumps ≠ []) :
    (List.zipWith (· || ·) row jumps).headD false = row.headD false := by
  cases row with
  | nil => rfl
  | cons b row =>
    cases jumps with
    | nil => exact absurd rfl hne
    | cons b' jumps =>
      obtain rfl : b' = false := h
      exact Bool.or_false b

/-- The row of the jumps behind slashes has at least one entry. -/
lemma slashRow_ne_nil (row : List Bool) : slashRow name row ≠ [] := by
  unfold slashRow
  split <;> simp

/-- Whole components admit a name without slashes if they come last, or if the tokens behind them
admit it. -/
lemma admits_tree (hslash : '/' ∉ name) :
    admits (.tree :: later) name = (later.isEmpty || admits later name) := by
  rw [admits, row_tree, treeRow]
  cases hlast : later.isEmpty with
  | false =>
    exact headD_zipWith_or (headD_slashRow hslash) (slashRow_ne_nil _)
  | true =>
    cases name with
    | nil => rw [row_nil]; rfl
    | cons c rest => rw [row_cons]; rfl

/-- **The rows say which names can be cut** into pieces for the tokens.

**Proof sketch.** Induction on the tokens. Each token's row is computed from the row of the tokens
behind it in the way in which its pieces are cut off. -/
lemma admits_iff_matched (hslash : '/' ∉ name) : admits tokens name = true ↔ Matched tokens name := by
  induction tokens generalizing name with
  | nil => rw [admits_nil_iff, matched_nil_iff]
  | cons token later ih =>
    obtain rfl | rfl | hsingle := token.isSingle_or
    · rw [admits_run_iff, matched_run_iff]
      exact exists_congr fun rest => and_congr_right fun hrest =>
        ih fun h => hslash (hrest.subset h)
    · rw [admits_tree hslash, matched_tree_iff, Bool.or_eq_true, List.isEmpty_iff, ih hslash]
    · rw [matched_single_iff hsingle]
      cases name with
      | nil => simp [admits_single_nil hsingle]
      | cons c rest =>
        have hrest : '/' ∉ rest := fun h => hslash (List.mem_cons_of_mem c h)
        simp [admits_single_cons hsingle, ih hrest]

end Detab.Glob
