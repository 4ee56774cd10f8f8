import Detab.FileSystem.Path
import Detab.Proofs.Glob.Matching
import Detab.Proofs.Glob.Spelling
import Detab.Proofs.Text.Decoding
import Mathlib.Tactic.Common

set_option relaxedAutoImplicit false
set_option autoImplicit false

/-!
# Searching for a match

A name can also be matched by a search: one cut is tried after the other, and the search goes back
when it is stuck. It gives up early when no later place can help. It finds a cut whenever there is one,
so it says the same as the rows, and both say what the text of the pattern means.

## Main definitions

* `Detab.Glob.search` — **the search that goes back,** as long as it has not given up.
* `Detab.Glob.Outcome.Means` — what an outcome of the search says of a name.

## Main results

* `Detab.Glob.search_sound` — **what the search says is so,** also when it gives up early.
* `Detab.Glob.matches_iff_pieces` — **the meaning of a pattern,** from its text to the names that it
  matches.

## Design

The search gives up when the name is used up before the tokens are: a shorter rest would be used up
as well. This would not hold of a token for whole components, which can jump over a slash. Such a token
stands behind a slash or at the front, and no name has a slash; so the search is shown to be right for
the tokens that some text spells.
-/

namespace Detab.Glob

variable {before : Option Char} {c : Char} {name rest text : List Char} {token : Token}
  {tokens later : List Token}

/-! ## Searching -/

/-- How an attempt to match a name from one place on has ended. -/
inductive Outcome where
  /-- The name matches. -/
  | found
  /-- It does not match from here, but it may match from a later place. -/
  | notHere
  /-- It has been used up, so it is given up at once. -/
  | nowhere
  deriving DecidableEq, Repr

/-- The attempts at a name and at its rests, the longest first, up to the one that settles it. -/
def tryRests (attempt : List Char → Outcome) : List Char → Outcome
  | [] => attempt []
  | c :: rest =>
    match attempt (c :: rest) with
    | .notHere => tryRests attempt rest
    | outcome => outcome

/-- The attempts at the rests of a name behind its slashes, and at last at its end. -/
def tryBehindSlashes (attempt : List Char → Outcome) : List Char → Outcome
  | [] => attempt []
  | c :: rest =>
    if c = '/' then
      match attempt rest with
      | .notHere => tryBehindSlashes attempt rest
      | outcome => outcome
    else tryBehindSlashes attempt rest

/-- **The search that goes back.** The shortest run is tried first. What a longer one would give is only
tried when nothing has settled the name before. -/
def search : List Token → List Char → Outcome
  | [], [] => .found
  | [], _ :: _ => .notHere
  | .run :: later, name => tryRests (search later) name
  | .tree :: later, name =>
    match search later name with
    | .notHere => tryBehindSlashes (search later) name
    | outcome => outcome
  | _ :: _, [] => .nowhere
  | token :: later, c :: rest => if token.accepts c then search later rest else .notHere

/-- **What an outcome says of a name.** When a search gives up, no rest of the name can match either;
this does not hold of tokens that stand behind a slash, and it is not needed there. -/
def Outcome.Means (before : Option Char) (tokens : List Token) (name : List Char) : Outcome → Prop
  | .found => Matched tokens name
  | .notHere => ¬ Matched tokens name
  | .nowhere => ¬ Matched tokens name ∧
      (before ≠ none → before ≠ some '/' → ∀ rest, rest <:+ name → ¬ Matched tokens rest)

/-- At the end of a name the search gives up when a token still stands for a character: no rest can
match either. -/
lemma search_single_nil (h : token.IsSingle) : search (token :: later) [] = .nowhere := by
  cases token with
  | run => exact absurd rfl h.1
  | tree => exact absurd rfl h.2
  | literal _ | any | oneOf _ | noneOf _ => rfl

/-- A token for one character is tried on the first one. When it does not accept it, a longer run
before it may still help. -/
lemma search_single_cons (h : token.IsSingle) : search (token :: later) (c :: rest) =
    if token.accepts c then search later rest else .notHere := by
  cases token with
  | run => exact absurd rfl h.1
  | tree => exact absurd rfl h.2
  | literal _ | any | oneOf _ | noneOf _ => rfl

/-- The attempts at all rests, with what each of them says, say what is so of a run.

**Proof sketch.** Induction on the name. What the first attempt says settles the matter if it has
found a match, or has given up, as then no rest can match either. Otherwise the attempts at the
shorter rests decide. -/
lemma means_tryRests {attempt : List Char → Outcome}
    (h : ∀ rest, rest <:+ name → (attempt rest).Means (some '*') later rest) :
    (tryRests attempt name).Means before (.run :: later) name := by
  induction name with
  | nil =>
    have hhere := h [] List.suffix_rfl
    rw [tryRests]
    generalize attempt [] = outcome at hhere ⊢
    cases outcome with
    | found => exact matched_run_nil_iff.mpr hhere
    | notHere => exact matched_run_nil_iff.not.mpr hhere
    | nowhere =>
      refine ⟨matched_run_nil_iff.not.mpr hhere.1, fun _ _ rest hrest => ?_⟩
      rw [List.suffix_nil.mp hrest]
      exact matched_run_nil_iff.not.mpr hhere.1
  | cons c rest ih =>
    have hhere := h (c :: rest) List.suffix_rfl
    have hlater := ih fun rest' hrest => h rest' (hrest.trans (List.suffix_cons c rest))
    rw [tryRests]
    generalize attempt (c :: rest) = outcome at hhere ⊢
    cases outcome with
    | found => exact matched_run_cons_iff.mpr (.inl hhere)
    | nowhere =>
      -- what has been given up here would be given up at every rest
      have hnone : ∀ rest', rest' <:+ c :: rest → ¬ Matched (.run :: later) rest' := by
        intro rest' hrest hmatched
        obtain ⟨rest'', hrest', hmatched⟩ := matched_run_iff.mp hmatched
        exact hhere.2 (by simp) (by simp) rest'' (hrest'.trans hrest) hmatched
      exact ⟨hnone _ List.suffix_rfl, fun _ _ => hnone⟩
    | notHere =>
      dsimp only
      generalize tryRests attempt rest = outcome at hlater ⊢
      cases outcome with
      | found => exact matched_run_cons_iff.mpr (.inr hlater)
      | notHere => exact matched_run_cons_iff.not.mpr (not_or.mpr ⟨hhere, hlater⟩)
      | nowhere =>
        have hnot : ¬ Matched (.run :: later) (c :: rest) :=
          matched_run_cons_iff.not.mpr (not_or.mpr ⟨hhere, hlater.1⟩)
        refine ⟨hnot, fun hnone hslash rest' hrest => ?_⟩
        obtain rfl | hrest := List.suffix_cons_iff.mp hrest
        · exact hnot
        · exact hlater.2 hnone hslash rest' hrest

/-- Without a slash only the end is left to be tried. -/
lemma tryBehindSlashes_eq {attempt : List Char → Outcome} (hslash : '/' ∉ name) :
    tryBehindSlashes attempt name = attempt [] := by
  induction name with
  | nil => rfl
  | cons c rest ih =>
    obtain ⟨hc, hrest⟩ := not_or.mp (List.mem_cons.not.mp hslash)
    rw [tryBehindSlashes, if_neg (Ne.symm hc), ih hrest]

/-- Whole components: the rest as it is, and then the end of the name.

**Proof sketch.** As the last token it takes everything. Otherwise the name without slashes has to
match the tokens behind it, and the second attempt, at the end of the name, finds nothing that the
first one has not found. -/
lemma means_search_tree (hbefore : before = none ∨ before = some '/') (hslash : '/' ∉ name)
    (h : ∀ rest, '/' ∉ rest → ∃ last, (search later rest).Means last later rest) :
    (search (.tree :: later) name).Means before (.tree :: later) name := by
  obtain ⟨last, hhere⟩ := h name hslash
  obtain ⟨last', hend⟩ := h [] List.not_mem_nil
  rw [search, tryBehindSlashes_eq hslash]
  by_cases hlater : later = []
  · -- the last token takes everything
    subst hlater
    have hmatched : Matched [.tree] name := matched_tree_iff.mpr (.inl rfl)
    cases name <;> exact hmatched
  · have hiff : Matched (.tree :: later) name ↔ Matched later name := by
      rw [matched_tree_iff, or_iff_right hlater]
    have hvacuous : before ≠ none → before ≠ some '/' →
        ∀ rest, rest <:+ name → ¬ Matched (.tree :: later) rest :=
      fun hnone hslash => absurd hbefore (not_or.mpr ⟨hnone, hslash⟩)
    generalize search later name = outcome at hhere ⊢
    cases outcome with
    | found => exact hiff.mpr hhere
    | nowhere => exact ⟨hiff.not.mpr hhere.1, hvacuous⟩
    | notHere =>
      dsimp only
      generalize search later [] = outcome at hend ⊢
      cases outcome with
      | found => exact hiff.mpr (Matched.of_nil hend hlater)
      | notHere => exact hiff.not.mpr hhere
      | nowhere => exact ⟨hiff.not.mpr hhere, hvacuous⟩

/-- A spelling of a token for one character ends in a slash only if it is this slash. -/
lemma eq_literal_of_getLast? {spelling : List Char} (h : token.SpelledBy before spelling rest)
    (hsingle : token.IsSingle) (hlast : spelling.getLast? = some '/') : token = .literal '/' := by
  cases token with
  | literal d =>
    obtain ⟨rfl, -⟩ := h
    exact congrArg Token.literal (Option.some.inj hlast)
  | any =>
    obtain rfl := h
    simp at hlast
  | oneOf set =>
    obtain ⟨first, others, rfl, -⟩ := h
    rw [List.getLast?_concat] at hlast
    simp at hlast
  | noneOf set =>
    obtain ⟨first, others, rfl, -⟩ := h
    rw [List.getLast?_concat] at hlast
    simp at hlast
  | run => exact absurd rfl hsingle.1
  | tree => exact absurd rfl hsingle.2

/-- One character: without one the name is used up, and so are all of its rests.

**Proof sketch.** Without a character nothing can match, and no rest of the empty name either. With
one that is accepted the tokens behind decide; when they give up, no rest matches, since a slash,
after which giving up would mean nothing, is not in the name. -/
lemma means_search_single {last : Option Char} (hsingle : token.IsSingle) (hslash : '/' ∉ name)
    (hnone : last ≠ none) (hlast : last = some '/' → token = .literal '/')
    (h : ∀ rest, '/' ∉ rest → (search later rest).Means last later rest) :
    (search (token :: later) name).Means before (token :: later) name := by
  have hempty : ¬ Matched (token :: later) [] := by
    rw [matched_single_iff hsingle]
    simp
  cases name with
  | nil =>
    rw [search_single_nil hsingle]
    refine ⟨hempty, fun _ _ rest hrest => ?_⟩
    rwa [List.suffix_nil.mp hrest]
  | cons c rest =>
    obtain ⟨hc, hrest⟩ := not_or.mp (List.mem_cons.not.mp hslash)
    have hiff : Matched (token :: later) (c :: rest) ↔
        token.accepts c = true ∧ Matched later rest := by
      rw [matched_single_iff hsingle]
      simp
    rw [search_single_cons hsingle]
    split
    · rename_i haccepts
      have hhere := h rest hrest
      generalize search later rest = outcome at hhere ⊢
      cases outcome with
      | found => exact hiff.mpr ⟨haccepts, hhere⟩
      | notHere => exact fun hmatched => hhere (hiff.mp hmatched).2
      | nowhere =>
        -- what gives up behind a slash says nothing of the rests, but there is no slash here
        have hplain : last ≠ some '/' := by
          intro hlast'
          obtain rfl := hlast hlast'
          exact hc (beq_iff_eq.mp haccepts).symm
        refine ⟨fun hmatched => hhere.1 (hiff.mp hmatched).2, fun _ _ rest' hrest' hmatched => ?_⟩
        obtain ⟨c', rest'', rfl, -, hmatched⟩ := (matched_single_iff hsingle).mp hmatched
        have hshort : rest'' <:+ rest := by
          obtain heq | hsuffix := List.suffix_cons_iff.mp hrest'
          · rw [(List.cons.inj heq).2]
          · exact (List.suffix_cons c' rest'').trans hsuffix
        exact hhere.2 hnone hplain rest'' hshort hmatched
    · rename_i haccepts
      exact fun hmatched => haccepts (hiff.mp hmatched).1

/-- **What the search says is so,** for tokens that a text spells.

**Proof sketch.** Induction on the spelling, with the character in front of it: it tells whether the
token for whole components can stand there. -/
lemma search_sound (h : Spells before text tokens) (hslash : '/' ∉ name) :
    (search tokens name).Means before tokens name := by
  induction h generalizing name with
  | done =>
    cases name with
    | nil => exact matched_nil_iff.mpr rfl
    | cons c rest => exact fun hmatched => List.cons_ne_nil c rest (matched_nil_iff.mp hmatched)
  | @token before spelling rest token later hspelled hlater ih =>
    obtain rfl | rfl | hsingle := token.isSingle_or
    · obtain ⟨rfl, -⟩ := hspelled
      exact means_tryRests fun rest hrest => ih fun hmem => hslash (hrest.subset hmem)
    · exact means_search_tree hspelled.1 hslash fun rest hrest => ⟨_, ih hrest⟩
    · exact means_search_single hsingle hslash
        (fun hnone => hspelled.ne_nil (List.getLast?_eq_none_iff.mp hnone))
        (eq_literal_of_getLast? hspelled hsingle) fun rest hrest => ih hrest

/-- The search finds a cut whenever there is one. -/
lemma search_eq_found_iff (h : Spells before text tokens) (hslash : '/' ∉ name) :
    search tokens name = .found ↔ Matched tokens name := by
  have hmeans := search_sound h hslash
  generalize search tokens name = outcome at hmeans ⊢
  cases outcome with
  | found => exact iff_of_true rfl hmeans
  | notHere => exact iff_of_false nofun hmeans
  | nowhere => exact iff_of_false nofun hmeans.1

/-! ## Patterns -/

/-- A name without slashes is read without slashes. -/
lemma notMem_lossy {name : Bytes} (hname : Path.slash ∉ name) : '/' ∉ Utf8.lossy name :=
  fun h => hname (Utf8.exists_byte_of_mem_lossy (by decide) h)

/-- **The meaning of a pattern,** for each text that is one and for each name of a file, whatever its
bytes are:

* the tokens of the pattern are the only ones that its text spells;
* a name matches exactly when its lossy reading can be cut into pieces that the tokens take, one piece
  for each token and in order;
* the search that goes back, and that may give up early, finds a match exactly then. -/
theorem matches_iff_pieces {text : String} {pattern : Pattern} {name : Bytes}
    (hread : Pattern.ofText text = .ok pattern) (hname : Path.slash ∉ name) :
    (∀ tokens, Spells none text.toList tokens ↔ tokens = pattern.tokens) ∧
      (pattern.matches (Utf8.lossy name) = true ↔
        ∃ pieces, pieces.flatten = Utf8.lossy name ∧ Fits pattern.tokens pieces) ∧
      (search pattern.tokens (Utf8.lossy name) = .found ↔
        pattern.matches (Utf8.lossy name) = true) := by
  obtain rfl := Pattern.ofText_eq_ok_iff.mp hread
  have hslash := notMem_lossy hname
  have hspells : Spells none pattern.text.toList pattern.tokens := pattern.spells_iff.mpr rfl
  have hmatches : pattern.matches (Utf8.lossy name) = true ↔
      Matched pattern.tokens (Utf8.lossy name) := admits_iff_matched hslash
  exact ⟨fun tokens => pattern.spells_iff, hmatches,
    (search_eq_found_iff hspells hslash).trans hmatches.symm⟩

/-- A run, an extension, and one character more that is not a small letter. -/
def oddEnd : Pattern :=
  ⟨"*.j[!a-z]", [.run, .literal '.', .literal 'j', .noneOf [.range 'a' 'z']], by decide⟩

/-- A hidden name that is not text. The empty run is tried first, and it leaves too much behind. -/
theorem matches_iff_pieces_oddEnd : Pattern.ofText "*.j[!a-z]" = .ok oddEnd ∧
    Path.slash ∉ [0x2E, 0x6A, 0x2E, 0x6A, 0xE4] ∧
    oddEnd.matches (Utf8.lossy [0x2E, 0x6A, 0x2E, 0x6A, 0xE4]) = true ∧
    search oddEnd.tokens (Utf8.lossy [0x2E, 0x6A, 0x2E, 0x6A, 0xE4]) = .found := by
  have hread : Pattern.ofText "*.j[!a-z]" = .ok oddEnd := Pattern.ofText_eq_ok_iff.mpr rfl
  have hname : Path.slash ∉ [0x2E, 0x6A, 0x2E, 0x6A, 0xE4] := by decide
  have hmatches : oddEnd.matches (Utf8.lossy [0x2E, 0x6A, 0x2E, 0x6A, 0xE4]) = true := by decide
  exact ⟨hread, hname, hmatches, (matches_iff_pieces hread hname).2.2.mpr hmatches⟩

end Detab.Glob
