set_option relaxedAutoImplicit false
set_option autoImplicit false

/-!
# Glob patterns

A pattern is a text that names a set of file names. It is read once into *tokens*; a text that
cannot be read is no pattern, and the error says where reading stopped and why.

## Main definitions

* `Detab.Glob.Token` — one element of a pattern.
* `Detab.Glob.PatternError` — why a text is no pattern.
* `Detab.Glob.tokens` — the tokens of a text.
* `Detab.Pattern`, `Detab.Pattern.ofText` — a text together with its tokens.

## Design

There is no escape character and there are no alternatives in braces. `*` stands for any run of
characters, also for one that begins with a dot. Two stars must fill a whole component between
slashes; they take the slash after them with them. The first character of a set may be the
closing bracket.
-/

namespace Detab

namespace Glob

/-- A member of a set: one character, or all characters from one to another. -/
inductive Member where
  | single (c : Char)
  | range (low high : Char)
  deriving DecidableEq, Repr

/-- One element of a pattern. -/
inductive Token where
  /-- This very character. -/
  | literal (c : Char)
  /-- Any one character: `?`. -/
  | any
  /-- Any run of characters: `*`. -/
  | run
  /-- Any run of whole components: `**`, with the slash that follows it. -/
  | tree
  /-- One character of a set: `[...]`. -/
  | oneOf (set : List Member)
  /-- One character that is not in a set: `[!...]`. -/
  | noneOf (set : List Member)
  deriving DecidableEq, Repr

/-- What is wrong with a text that is no pattern. -/
inductive Problem where
  /-- More than two stars in a row. -/
  | tooManyStars
  /-- Two stars beside something other than a slash or an end. -/
  | partialComponent
  /-- A set that is not closed. -/
  | openSet
  deriving DecidableEq, Repr

/-- The wording of a problem. -/
def Problem.message : Problem → String
  | .tooManyStars => "wildcards are either regular `*` or recursive `**`"
  | .partialComponent => "recursive wildcards must form a single path component"
  | .openSet => "invalid range pattern"

/-- **Why a text is no pattern,** with the place, in characters from 0, that is to blame. -/
structure PatternError where
  position : Nat
  problem : Problem
  deriving DecidableEq, Repr

/-- The wording of a pattern error. -/
def PatternError.message (e : PatternError) : String :=
  s!"Pattern syntax error near position {e.position}: {e.problem.message}"

/-! ## Reading -/

/-- The members of a set, three characters at a time where the second is a hyphen. -/
def members : List Char → List Member
  | low :: '-' :: high :: rest => .range low high :: members rest
  | c :: rest => .single c :: members rest
  | [] => []

/-- The characters before the first closing bracket, if there is one. -/
def beforeClose : List Char → Option (List Char)
  | [] => none
  | ']' :: _ => some []
  | c :: rest => (beforeClose rest).map (c :: ·)

/-- The number of stars at the head of a text. -/
def leadingStars : List Char → Nat
  | '*' :: rest => leadingStars rest + 1
  | _ => 0

/-- A token and the number of characters that it takes, from a text that begins with a star.
`before` is the character in front of it. -/
def readStars (position : Nat) (before : Option Char) (text : List Char) :
    Except PatternError (Token × Nat) :=
  match leadingStars text with
  | 1 => .ok (.run, 1)
  | 2 =>
    if before = none ∨ before = some '/' then
      match text.drop 2 with
      | [] => .ok (.tree, 2)
      | '/' :: _ => .ok (.tree, 3)
      | _ => .error ⟨position + 2, .partialComponent⟩
    else .error ⟨position - 1, .partialComponent⟩
  | _ => .error ⟨position + 2, .tooManyStars⟩

/-- A set and the number of characters that it takes, from the text after its opening bracket. -/
def readSet (position : Nat) : List Char → Except PatternError (Token × Nat)
  | '!' :: c :: rest =>
    match beforeClose rest with
    | some others => .ok (.noneOf (members (c :: others)), others.length + 4)
    | none => .error ⟨position, .openSet⟩
  | c :: rest =>
    match beforeClose rest with
    | some others => .ok (.oneOf (members (c :: others)), others.length + 3)
    | none => .error ⟨position, .openSet⟩
  | [] => .error ⟨position, .openSet⟩

/-- The first token of a text that begins with `c`, and the number of characters it takes. -/
def readToken (position : Nat) (before : Option Char) (c : Char) (rest : List Char) :
    Except PatternError (Token × Nat) :=
  match c with
  | '?' => .ok (.any, 1)
  | '*' => readStars position before (c :: rest)
  | '[' => readSet position rest
  | c => .ok (.literal c, 1)

/-- The tokens of what is left of a text from `position` on. Every token takes a character, so
`fuel` need not exceed the number of characters left. -/
def tokensFrom : (fuel position : Nat) → (before : Option Char) → List Char →
    Except PatternError (List Token)
  | _, _, _, [] => .ok []
  | 0, _, _, _ :: _ => .ok []
  | fuel + 1, position, before, c :: rest =>
    match readToken position before c rest with
    | .error e => .error e
    | .ok (token, taken) =>
      let last := ((c :: rest).take taken).getLast?
      match tokensFrom fuel (position + taken) last ((c :: rest).drop taken) with
      | .error e => .error e
      | .ok others => .ok (token :: others)

/-- **The tokens of a text**, or why it is no pattern. -/
def tokens (text : List Char) : Except PatternError (List Token) :=
  tokensFrom text.length 0 none text

end Glob

/-- **A pattern:** a text that can be read, with its tokens. -/
structure Pattern where
  /-- The pattern as it was written. -/
  text : String
  /-- Its elements, in order. -/
  tokens : List Glob.Token
  /-- The elements are the ones that the text spells. -/
  read : Glob.tokens text.toList = .ok tokens

namespace Pattern

/-- The pattern that a text spells, or why it spells none. -/
def ofText (text : String) : Except Glob.PatternError Pattern :=
  match h : Glob.tokens text.toList with
  | .ok tokens => .ok ⟨text, tokens, h⟩
  | .error e => .error e

/-- Two patterns with one text are the same. -/
@[ext]
theorem ext_text {p q : Pattern} (h : p.text = q.text) : p = q := by
  obtain ⟨s, ts, hs⟩ := p
  obtain ⟨t, us, ht⟩ := q
  obtain rfl : s = t := h
  obtain rfl : ts = us := Except.ok.inj (hs.symm.trans ht)
  rfl

/-- Two patterns are equal when their texts are, because a text has at most one reading as tokens.
-/
instance : DecidableEq Pattern := fun p q =>
  if h : p.text = q.text then .isTrue (ext_text h)
  else .isFalse fun e => h (e ▸ rfl)

end Pattern

end Detab
