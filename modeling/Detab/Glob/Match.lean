import Detab.Glob.Pattern

set_option relaxedAutoImplicit false
set_option autoImplicit false

/-!
# Matching names against patterns

A name matches a pattern when it can be cut into consecutive pieces, one for each token. All ways
to cut it are tried at once: for a list of tokens, `Glob.row` says of every rest of the name
whether the tokens match it, and the row of a longer list is computed from the row of its tail.
The work is the number of tokens times the length of the name, whatever the pattern.

## Main definitions

* `Detab.Glob.Token.accepts` — whether a token that stands for one character stands for this one.
* `Detab.Glob.row` — which rests of a name some tokens match.
* `Detab.Pattern.matches` — whether a name matches.
-/

namespace Detab

namespace Glob

/-- Whether a character belongs to a member of a set; a range from high to low holds nothing. -/
def Member.contains (c : Char) : Member → Bool
  | .single d => c == d
  | .range low high => decide (low ≤ c) && decide (c ≤ high)

/-- Whether a token that stands for one character stands for this one. -/
def Token.accepts (c : Char) : Token → Bool
  | .literal d => c == d
  | .any => true
  | .oneOf set => set.any (Member.contains c)
  | .noneOf set => !set.any (Member.contains c)
  | .run => false
  | .tree => false

/-- The row of no tokens: only the empty rest is matched. -/
def emptyRow : List Char → List Bool
  | [] => [true]
  | _ :: rest => false :: emptyRow rest

/-- The row of a token for one character, given the row of the tokens after it. -/
def stepRow (accepts : Char → Bool) : List Char → List Bool → List Bool
  | c :: rest, _ :: later => (accepts c && later.headD false) :: stepRow accepts rest later
  | _, _ => [false]

/-- The row of a token for any run, given the row of the tokens after it. -/
def runRow : List Bool → List Bool
  | [] => []
  | b :: later =>
    let tail := runRow later
    (b || tail.headD false) :: tail

/-- Which rests begin with a non-empty run that ends in a slash and is followed by a rest that the
given row admits. -/
def slashRow : List Char → List Bool → List Bool
  | c :: rest, _ :: later =>
    let tail := slashRow rest later
    ((c == '/' && later.headD false) || tail.headD false) :: tail
  | _, _ => [false]

/-- The row of a token for whole components, given the row of the tokens after it. As the last
token it matches everything. -/
def treeRow (isLast : Bool) (name : List Char) (later : List Bool) : List Bool :=
  if isLast then later.map fun _ => true
  else List.zipWith (· || ·) later (slashRow name later)

/-- **Which rests of a name some tokens match:** entry `i` is about the name without its first `i`
characters, so there is one entry more than there are characters. -/
def row (name : List Char) : List Token → List Bool
  | [] => emptyRow name
  | .run :: later => runRow (row name later)
  | .tree :: later => treeRow later.isEmpty name (row name later)
  | token :: later => stepRow (fun c => token.accepts c) name (row name later)

end Glob

/-- **Whether a name matches a pattern,** case-sensitively and from end to end. -/
def Pattern.matches (pattern : Pattern) (name : List Char) : Bool :=
  (Glob.row name pattern.tokens).headD false

end Detab
