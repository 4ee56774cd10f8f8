import Detab.Json5.Token

set_option relaxedAutoImplicit false
set_option autoImplicit false

/-!
# JSON5 documents

## Main definitions

* `Detab.Json5.Value` — the value that a document holds.
* `Detab.Json5.nesting` — how deep the brackets and braces of some tokens are nested.
* `Detab.Json5.parse?` — the value of a text, if it is a document.

## Design

Numerals stay as they are written and texts keep their escapes' numbers: whether either has a
meaning depends on what the value is used for.
-/

namespace Detab.Json5

/-- A value. The members of an object are in the order in which they are written. -/
inductive Value where
  | null
  | boolean (b : Bool)
  | numeral (n : Numeral)
  | text (content : CodePoints)
  | array (items : List Value)
  | object (members : List (CodePoints × Value))
  deriving Repr, Inhabited

/-- The value of a word that stands where a value has to. -/
def keyword? (name : CodePoints) : Option Value :=
  match characters? name with
  | some ['n', 'u', 'l', 'l'] => some .null
  | some ['t', 'r', 'u', 'e'] => some (.boolean true)
  | some ['f', 'a', 'l', 's', 'e'] => some (.boolean false)
  | some ['I', 'n', 'f', 'i', 'n', 'i', 't', 'y'] => some (.numeral ⟨none, .infinity⟩)
  | some ['N', 'a', 'N'] => some (.numeral ⟨none, .nan⟩)
  | _ => none

mutual

/-- The value at the head of some tokens, and the rest. Every step takes a token, so `fuel` need not
exceed their number. -/
def readValue? : (fuel : Nat) → List Token → Option (Value × List Token)
  | fuel + 1, token :: rest =>
    match token with
    | .word name false => (keyword? name).map fun value => (value, rest)
    | .text content => some (.text content, rest)
    | .numeral n => some (.numeral n, rest)
    | .openBracket => (readItems? fuel rest).map fun (items, rest) => (.array items, rest)
    | .openBrace => (readMembers? fuel rest).map fun (members, rest) => (.object members, rest)
    | _ => none
  | _, _ => none

/-- The items up to a closing bracket, and the rest. A comma may stand behind the last item. -/
def readItems? : (fuel : Nat) → List Token → Option (List Value × List Token)
  | _, .closeBracket :: rest => some ([], rest)
  | fuel + 1, tokens =>
    match readValue? fuel tokens with
    | some (item, .comma :: rest) =>
      (readItems? fuel rest).map fun (items, rest) => (item :: items, rest)
    | some (item, .closeBracket :: rest) => some ([item], rest)
    | _ => none
  | 0, _ => none

/-- The members up to a closing brace, and the rest. A comma may stand behind the last member. -/
def readMembers? : (fuel : Nat) → List Token → Option (List (CodePoints × Value) × List Token)
  | _, .closeBrace :: rest => some ([], rest)
  | fuel + 1, key :: .colon :: tokens =>
    let name? : Option CodePoints :=
      match key with
      | .word name _ => some name
      | .text content => some content
      | _ => none
    match name?, readValue? fuel tokens with
    | some name, some (value, .comma :: rest) =>
      (readMembers? fuel rest).map fun (members, rest) => ((name, value) :: members, rest)
    | some name, some (value, .closeBrace :: rest) => some ([(name, value)], rest)
    | _, _ => none
  | _, _ => none

end

/-- The value that some tokens spell, if they spell exactly one. -/
def valueOf? (tokens : List Token) : Option Value :=
  match readValue? (2 * tokens.length) tokens with
  | some (value, []) => some value
  | _ => none

/-! ## Nesting -/

/-- How deep the brackets and braces of some tokens are nested, when `depth` of them are open and
`deepest` were open at most so far. -/
def nestingFrom : (depth deepest : Nat) → List Token → Nat
  | _, deepest, [] => deepest
  | depth, deepest, token :: rest =>
    match token with
    | .openBracket | .openBrace => nestingFrom (depth + 1) (max deepest (depth + 1)) rest
    | .closeBracket | .closeBrace => nestingFrom (depth - 1) deepest rest
    | _ => nestingFrom depth deepest rest

/-- **How deep the brackets and braces of some tokens are nested.** -/
def nesting (tokens : List Token) : Nat :=
  nestingFrom 0 0 tokens

/-- The greatest nesting of a document. -/
def maxNesting : Nat := 2048

/-- **The value of a text,** if it is a document and its nesting is not too deep. -/
def parse? (text : List Char) : Option Value :=
  (scan text).bind fun tokens => if nesting tokens ≤ maxNesting then valueOf? tokens else none

end Detab.Json5
