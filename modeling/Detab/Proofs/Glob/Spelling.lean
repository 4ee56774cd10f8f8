import Detab.Glob.Pattern
import Mathlib.Tactic.Common

set_option relaxedAutoImplicit false
set_option autoImplicit false

/-!
# The spelling of patterns

What a text spells is said without reading it: each token has its spellings, and a text spells some
tokens when it is made of their spellings, one after the other. The reader of `Glob.tokens` finds
these tokens and no others.

## Main definitions

* `Detab.Glob.SpellsSet` — what the text between the brackets of a set spells.
* `Detab.Glob.Token.SpelledBy` — the spellings of a token.
* `Detab.Glob.Spells` — **what a text spells.**

## Main results

* `Detab.Glob.members_eq_iff` — the members of a set are the ones that its text spells.
* `Detab.Glob.tokens_eq_ok_iff` — **the tokens of a text are the ones that it spells.**
* `Detab.Pattern.ofText_eq_ok_iff`, `Detab.Pattern.spells_iff` — a pattern and its text.

## Design

Two stars in a row are one token, or none: so a spelling depends on the character in front of it and
on the text behind it. The same holds for the hyphen in a set.
-/

namespace Detab.Glob

variable {before : Option Char} {c : Char} {text rest body others : List Char} {set : List Member}
  {token : Token} {later : List Token} {position taken : Nat}

/-! ## Sets -/

/-- **What the text between the brackets of a set spells,** from the left: three characters of which
the second is a hyphen are a range, and any other character is a member by itself. -/
inductive SpellsSet : List Char → List Member → Prop
  | done : SpellsSet [] []
  | range {low high : Char} {rest : List Char} {set : List Member} :
      SpellsSet rest set → SpellsSet (low :: '-' :: high :: rest) (.range low high :: set)
  | single {c : Char} {rest : List Char} {set : List Member} :
      (∀ high more, rest ≠ '-' :: high :: more) → SpellsSet rest set →
        SpellsSet (c :: rest) (.single c :: set)

/-- **The members of a set are the ones that its text spells.**

**Proof sketch.** Along the recursion of the reader: a range comes first where one can be read, then
a single character, and at the end nothing. -/
lemma members_eq_iff : members body = set ↔ SpellsSet body set := by
  fun_induction members body generalizing set with
  | case1 low high rest ih =>
    constructor
    · rintro rfl
      exact .range (ih.mp rfl)
    · intro h
      cases h with
      | range h => rw [ih.mpr h]
      | single hrange _ => exact absurd rfl (hrange high rest)
  | case2 c rest hrange ih =>
    constructor
    · rintro rfl
      exact .single (fun high more h => hrange _ _ h) (ih.mp rfl)
    · intro h
      cases h with
      | range h => exact absurd rfl (hrange _ _)
      | single _ h => rw [ih.mpr h]
  | case3 =>
    constructor
    · rintro rfl
      exact .done
    · intro h
      cases h
      rfl

/-! ## Tokens -/

/-- **The spellings of a token,** between the character `before` and the text `rest`. -/
def Token.SpelledBy (before : Option Char) (spelling rest : List Char) : Token → Prop
  | .literal c => spelling = [c] ∧ c ≠ '?' ∧ c ≠ '*' ∧ c ≠ '['
  | .any => spelling = ['?']
  | .run => spelling = ['*'] ∧ rest.head? ≠ some '*'
  | .tree =>
    (before = none ∨ before = some '/') ∧
      (spelling = ['*', '*', '/'] ∨ spelling = ['*', '*'] ∧ rest = [])
  | .oneOf set => ∃ first others, spelling = '[' :: first :: others ++ [']'] ∧ first ≠ '!' ∧
      ']' ∉ others ∧ SpellsSet (first :: others) set
  | .noneOf set => ∃ first others, spelling = '[' :: '!' :: first :: others ++ [']'] ∧
      ']' ∉ others ∧ SpellsSet (first :: others) set

/-- **What a text spells,** behind the character `before`. -/
inductive Spells : (before : Option Char) → List Char → List Token → Prop
  | done {before : Option Char} : Spells before [] []
  | token {before : Option Char} {spelling rest : List Char} {token : Token} {later : List Token} :
      token.SpelledBy before spelling rest → Spells spelling.getLast? rest later →
        Spells before (spelling ++ rest) (token :: later)

/-- A spelling is not empty. -/
lemma Token.SpelledBy.ne_nil {spelling : List Char} (h : token.SpelledBy before spelling rest) :
    spelling ≠ [] := by
  cases token with
  | literal c => simp [h.1]
  | any => simp [show spelling = _ from h]
  | run => simp [h.1]
  | tree => rcases h.2 with h | ⟨h, -⟩ <;> simp [h]
  | oneOf set =>
    obtain ⟨first, others, rfl, -⟩ := h
    simp
  | noneOf set =>
    obtain ⟨first, others, rfl, -⟩ := h
    simp

/-! ## Reading -/

/-- The search for the closing bracket cuts the text there.

**Proof sketch.** Along the recursion of the search, which ends at the first closing bracket. -/
lemma beforeClose_eq_some_iff :
    beforeClose text = some others ↔ ']' ∉ others ∧ ∃ rest, text = others ++ ']' :: rest := by
  fun_induction beforeClose text generalizing others with
  | case1 => simp
  | case2 rest =>
    constructor
    · intro h
      obtain rfl := Option.some.inj h
      exact ⟨List.not_mem_nil, rest, rfl⟩
    · rintro ⟨hno, more, hcut⟩
      cases others with
      | nil => rfl
      | cons c others =>
        obtain ⟨rfl, -⟩ := List.cons.inj hcut
        exact absurd List.mem_cons_self hno
  | case3 c rest hc ih =>
    rw [Option.map_eq_some_iff]
    constructor
    · rintro ⟨others, hothers, rfl⟩
      obtain ⟨hno, more, rfl⟩ := ih.mp hothers
      exact ⟨by simp [hno, Ne.symm hc], more, rfl⟩
    · rintro ⟨hno, more, hcut⟩
      cases others with
      | nil => exact absurd (List.cons.inj hcut).1 hc
      | cons c' others =>
        obtain ⟨rfl, rfl⟩ := List.cons.inj hcut
        exact ⟨others, ih.mpr ⟨fun h => hno (List.mem_cons_of_mem _ h), more, rfl⟩, rfl⟩

/-- A text that does not begin with a star has no stars at its head. -/
lemma leadingStars_of_head (h : text.head? ≠ some '*') : leadingStars text = 0 := by
  unfold leadingStars
  split
  · simp at h
  · rfl

/-- A token is at the head of a text, with a spelling of `taken` characters. -/
def Heads (before : Option Char) (text : List Char) (token : Token) (taken : Nat) : Prop :=
  ∃ spelling rest, text = spelling ++ rest ∧ spelling.length = taken ∧
    token.SpelledBy before spelling rest

/-- **What is read at a star is spelled there:** a run by a single star, whole components by two
stars between slashes or the ends of the text.

**Proof sketch.** By the number of stars: one is a run, two are whole components if they stand
between slashes or ends, and everything else is an error. -/
lemma heads_of_readStars (h : readStars position before ('*' :: rest) = .ok (token, taken)) :
    Heads before ('*' :: rest) token taken := by
  unfold readStars at h
  split at h
  · rename_i hone
    obtain ⟨rfl, rfl⟩ := Prod.mk.inj (Except.ok.inj h)
    refine ⟨['*'], rest, rfl, rfl, rfl, fun hhead => ?_⟩
    obtain ⟨more, rfl⟩ := List.head?_eq_some_iff.mp hhead
    simp [leadingStars] at hone
  · rename_i htwo
    split at h
    · rename_i hbefore
      cases rest with
      | nil => simp [leadingStars] at htwo
      | cons c rest =>
        by_cases hc : c = '*'
        · subst hc
          split at h
          · rename_i hend
            obtain ⟨rfl, rfl⟩ := Prod.mk.inj (Except.ok.inj h)
            obtain rfl : rest = [] := hend
            exact ⟨['*', '*'], [], rfl, rfl, hbefore, .inr ⟨rfl, rfl⟩⟩
          · rename_i more hslash
            obtain ⟨rfl, rfl⟩ := Prod.mk.inj (Except.ok.inj h)
            obtain rfl : rest = '/' :: more := hslash
            exact ⟨['*', '*', '/'], more, rfl, rfl, hbefore, .inl rfl⟩
          · simp at h
        · rw [leadingStars, leadingStars_of_head (by simpa using hc)] at htwo
          simp at htwo
    · simp at h
  · simp at h

/-- **What is read at an opening bracket is spelled there:** a set, or the complement of one when an
exclamation mark comes first.

**Proof sketch.** By whether an exclamation mark comes first. The first character of a set is always
a member, and the closing bracket is searched for behind it. -/
lemma heads_of_readSet (h : readSet position rest = .ok (token, taken)) :
    Heads before ('[' :: rest) token taken := by
  unfold readSet at h
  split at h
  · rename_i c rest
    split at h
    · rename_i others hclose
      obtain ⟨rfl, rfl⟩ := Prod.mk.inj (Except.ok.inj h)
      obtain ⟨hno, more, rfl⟩ := beforeClose_eq_some_iff.mp hclose
      exact ⟨'[' :: '!' :: c :: others ++ [']'], more, by simp, by simp, c, others, rfl, hno,
        members_eq_iff.mp rfl⟩
    · simp at h
  · rename_i c rest hplain
    split at h
    · rename_i others hclose
      obtain ⟨rfl, rfl⟩ := Prod.mk.inj (Except.ok.inj h)
      obtain ⟨hno, more, rfl⟩ := beforeClose_eq_some_iff.mp hclose
      refine ⟨'[' :: c :: others ++ [']'], more, by simp, by simp, c, others, rfl, ?_, hno,
        members_eq_iff.mp rfl⟩
      intro hbang
      cases others with
      | nil => exact hplain ']' more hbang rfl
      | cons c' others => exact hplain c' (others ++ ']' :: more) hbang rfl
    · simp at h
  · simp at h

/-- What is read as the first token of a text is spelled there. -/
lemma heads_of_readToken (h : readToken position before c rest = .ok (token, taken)) :
    Heads before (c :: rest) token taken := by
  unfold readToken at h
  split at h
  · obtain ⟨rfl, rfl⟩ := Prod.mk.inj (Except.ok.inj h)
    exact ⟨['?'], rest, rfl, rfl, rfl⟩
  · exact heads_of_readStars h
  · exact heads_of_readSet h
  · rename_i hany hstar hset
    obtain ⟨rfl, rfl⟩ := Prod.mk.inj (Except.ok.inj h)
    exact ⟨[c], rest, rfl, rfl, rfl, hany, hstar, hset⟩

/-- A token that is spelled at the head of a text is read there.

**Proof sketch.** By the kinds of tokens, each with the characters that its spelling begins with. -/
lemma readToken_of_spelledBy {spelling : List Char} (h : token.SpelledBy before spelling rest)
    (htext : spelling ++ rest = c :: text) :
    readToken position before c text = .ok (token, spelling.length) := by
  cases token with
  | literal d =>
    obtain ⟨rfl, hany, hstar, hset⟩ := h
    obtain ⟨rfl, rfl⟩ := List.cons.inj htext
    unfold readToken
    split
    · exact absurd rfl hany
    · exact absurd rfl hstar
    · exact absurd rfl hset
    · rfl
  | any =>
    obtain rfl := h
    obtain ⟨rfl, rfl⟩ := List.cons.inj htext
    rfl
  | run =>
    obtain ⟨rfl, hhead⟩ := h
    obtain ⟨rfl, rfl⟩ := List.cons.inj htext
    change readStars position before ('*' :: rest) = _
    rw [readStars, leadingStars, leadingStars_of_head hhead]
    rfl
  | tree =>
    obtain ⟨hbefore, rfl | ⟨rfl, rfl⟩⟩ := h
    · obtain ⟨rfl, rfl⟩ := List.cons.inj htext
      change readStars position before ('*' :: '*' :: '/' :: rest) = _
      rw [readStars, leadingStars, leadingStars, leadingStars_of_head (by simp)]
      exact if_pos hbefore
    · obtain ⟨rfl, rfl⟩ := List.cons.inj htext
      change readStars position before ['*', '*'] = _
      exact if_pos hbefore
  | oneOf set =>
    obtain ⟨first, others, rfl, hfirst, hno, hset⟩ := h
    obtain ⟨rfl, rfl⟩ := List.cons.inj htext
    have hclose : beforeClose (others ++ [']'] ++ rest) = some others :=
      beforeClose_eq_some_iff.mpr ⟨hno, rest, List.append_assoc _ _ _⟩
    change readSet position (first :: (others ++ [']'] ++ rest)) = _
    unfold readSet
    split
    · rename_i hcut
      exact absurd (List.cons.inj hcut).1 hfirst
    · rename_i hcut
      obtain ⟨rfl, rfl⟩ := List.cons.inj hcut
      rw [hclose]
      simp [members_eq_iff.mpr hset]
    · rename_i hcut
      simp at hcut
  | noneOf set =>
    obtain ⟨first, others, rfl, hno, hset⟩ := h
    obtain ⟨rfl, rfl⟩ := List.cons.inj htext
    have hclose : beforeClose (others ++ [']'] ++ rest) = some others :=
      beforeClose_eq_some_iff.mpr ⟨hno, rest, List.append_assoc _ _ _⟩
    change readSet position ('!' :: first :: (others ++ [']'] ++ rest)) = _
    rw [readSet, hclose]
    simp [members_eq_iff.mpr hset]

/-- The empty text spells no tokens. -/
lemma spells_nil_iff {tokens : List Token} : Spells before [] tokens ↔ tokens = [] := by
  constructor
  · intro h
    generalize htext : ([] : List Char) = text at h
    cases h with
    | done => rfl
    | token hspelled _ => exact absurd (List.append_eq_nil_iff.mp htext.symm).1 hspelled.ne_nil
  · rintro rfl
    exact .done

/-- **What is left of a text is read as the tokens that it spells.**

**Proof sketch.** Induction on the fuel. What is read first is spelled at the head of the text, and what
is spelled there is read; behind it less text is left. -/
lemma tokensFrom_eq_ok_iff {fuel : Nat} (hfuel : text.length ≤ fuel) {tokens : List Token} :
    tokensFrom fuel position before text = .ok tokens ↔ Spells before text tokens := by
  induction fuel generalizing position before text tokens with
  | zero =>
    obtain rfl := List.length_eq_zero_iff.mp (Nat.le_zero.mp hfuel)
    rw [spells_nil_iff, tokensFrom]
    simp [eq_comm]
  | succ fuel ih =>
    cases text with
    | nil =>
      rw [spells_nil_iff, tokensFrom]
      simp [eq_comm]
    | cons c text =>
      rw [tokensFrom]
      constructor
      · intro h
        split at h
        · simp at h
        · rename_i token taken hread
          obtain ⟨spelling, rest, hcut, rfl, hspelled⟩ := heads_of_readToken hread
          have hpos := List.length_pos_iff.mpr hspelled.ne_nil
          rw [hcut, List.take_left, List.drop_left] at h
          dsimp only at h
          split at h
          · simp at h
          · rename_i later hlater
            obtain rfl := Except.ok.inj h
            have hshort : rest.length ≤ fuel := by
              have hlength := congrArg List.length hcut
              simp only [List.length_cons, List.length_append] at hlength hfuel
              omega
            rw [hcut]
            exact .token hspelled ((ih hshort).mp hlater)
      · intro h
        generalize htext : c :: text = all at h
        cases h with
        | done => simp at htext
        | @token _ spelling rest token later hspelled hlater =>
          have hpos := List.length_pos_iff.mpr hspelled.ne_nil
          have hshort : rest.length ≤ fuel := by
            have hlength := congrArg List.length htext
            simp only [List.length_cons, List.length_append] at hlength hfuel
            omega
          rw [readToken_of_spelledBy hspelled htext.symm]
          simp only [List.take_left, List.drop_left, (ih hshort).mpr hlater]

/-- **The tokens of a text are the ones that it spells.** -/
lemma tokens_eq_ok_iff {tokens : List Token} :
    Glob.tokens text = .ok tokens ↔ Spells none text tokens :=
  tokensFrom_eq_ok_iff (Nat.le_refl _)

end Detab.Glob

namespace Detab

/-- **A pattern is read from its own text only.** -/
lemma Pattern.ofText_eq_ok_iff {text : String} {pattern : Pattern} :
    ofText text = .ok pattern ↔ text = pattern.text := by
  unfold ofText
  constructor
  · intro h
    split at h
    · obtain rfl := Except.ok.inj h
      rfl
    · simp at h
  · rintro rfl
    split
    · exact congrArg Except.ok (ext_text rfl)
    · rename_i e he
      simp [pattern.read] at he

/-- The tokens of a pattern are the ones that its text spells. -/
lemma Pattern.spells_iff (pattern : Pattern) {tokens : List Glob.Token} :
    Glob.Spells none pattern.text.toList tokens ↔ tokens = pattern.tokens := by
  rw [← Glob.tokens_eq_ok_iff, pattern.read]
  exact ⟨fun h => (Except.ok.inj h).symm, fun h => congrArg Except.ok h.symm⟩

end Detab
