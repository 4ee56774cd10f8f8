import Detab.Json5.Letter
import Detab.Json5.Mark
import Detab.Json5.Numeral

set_option relaxedAutoImplicit false
set_option autoImplicit false

/-!
# Tokens of a JSON5 document

A document is first cut into tokens. Blanks and comments end here: what is read from the tokens
cannot depend on them.

## Main definitions

* `Detab.Json5.CodePoints` — a text in which an escape may stand for a surrogate.
* `Detab.Json5.Token` — a token.
* `Detab.Json5.scan` — the tokens of a text, if it can be cut into tokens.
-/

namespace Detab.Json5

/-- A text by the numbers of its characters. An escape may give a surrogate, which is the number of
no character. -/
abbrev CodePoints := List Nat

/-- The characters of a text, if every number in it is the number of a character. -/
def characters? : CodePoints → Option (List Char)
  | [] => some []
  | n :: rest =>
    if n.isValidChar then (characters? rest).map (Char.ofNat n :: ·) else none

/-- The numbers of some characters. -/
def codePoints (text : List Char) : CodePoints :=
  text.map Char.toNat

/-- A token. -/
inductive Token where
  | openBrace
  | closeBrace
  | openBracket
  | closeBracket
  | colon
  | comma
  /-- A word; `escaped` when it was written with an escape, so that it can be a key but not a
  keyword. -/
  | word (name : CodePoints) (escaped : Bool)
  /-- A text between quotes. -/
  | text (content : CodePoints)
  /-- A numeral. -/
  | numeral (n : Numeral)
  deriving DecidableEq, Repr

/-! ## Classes of characters -/

/-- The characters that end a line. -/
def isLineEnd (c : Char) : Bool :=
  c = '\n' || c = '\r' || c = '\u2028' || c = '\u2029'

/-- The characters that may stand between tokens: those that end a line, tabs, page breaks, the
byte order mark and all space separators. -/
def isBlank (c : Char) : Bool :=
  isLineEnd c || c = '\t' || c = '\x0b' || c = '\x0c' || c = ' ' || c = '\u00a0' || c = '\ufeff' ||
    c = '\u1680' || ('\u2000' ≤ c && c ≤ '\u200a') || c = '\u202f' || c = '\u205f' || c = '\u3000'

/-- The characters that may begin a word. -/
def isWordStart (c : Char) : Bool :=
  c = '$' || c = '_' || letter.contains c

/-- The characters that may continue a word. -/
def isWordPart (c : Char) : Bool :=
  isWordStart c || mark.contains c || c = '\u200c' || c = '\u200d'

/-! ## Reading one token -/

/-- The number that two hexadecimal digits spell. -/
def hexPair? (a b : Char) : Option Nat := do
  return (← hexDigit? a) * 16 + (← hexDigit? b)

/-- The number that four hexadecimal digits spell. -/
def hexQuad? (a b c d : Char) : Option Nat := do
  return (← hexPair? a b) * 256 + (← hexPair? c d)

/-- A word as far as it goes, whether it was written with an escape, and the rest. -/
def readWord : List Char → CodePoints × Bool × List Char
  | '\\' :: 'u' :: a :: b :: c :: d :: rest =>
    match hexQuad? a b c d with
    | some n =>
      let (name, _, rest) := readWord rest
      (n :: name, true, rest)
    | none => ([], false, '\\' :: 'u' :: a :: b :: c :: d :: rest)
  | c :: rest =>
    if isWordPart c then
      let (name, escaped, rest) := readWord rest
      (c.toNat :: name, escaped, rest)
    else ([], false, c :: rest)
  | [] => ([], false, [])

/-- What an escaped character stands for, if it is not one that needs more characters or that is
reserved. -/
def simpleEscape? (c : Char) : Option Nat :=
  match c with
  | 'b' => some 0x08
  | 'f' => some 0x0C
  | 'n' => some 0x0A
  | 'r' => some 0x0D
  | 't' => some 0x09
  | 'v' => some 0x0B
  | '0' => some 0
  | 'x' => none
  | 'u' => none
  | c => if Numeral.isDigit c then none else some c.toNat

/-- The text up to a closing quote, and the rest. A line may end inside only after a backslash, and
then both vanish. -/
def readText? (quote : Char) : List Char → Option (CodePoints × List Char)
  | [] => none
  | '\\' :: 'x' :: a :: b :: rest =>
    match hexPair? a b, readText? quote rest with
    | some n, some (content, rest) => some (n :: content, rest)
    | _, _ => none
  | '\\' :: 'u' :: a :: b :: c :: d :: rest =>
    match hexQuad? a b c d, readText? quote rest with
    | some n, some (content, rest) => some (n :: content, rest)
    | _, _ => none
  | '\\' :: '\r' :: '\n' :: rest => readText? quote rest
  | '\\' :: c :: rest =>
    if isLineEnd c then readText? quote rest
    else
      match simpleEscape? c, readText? quote rest with
      | some n, some (content, rest) => some (n :: content, rest)
      | _, _ => none
  | c :: rest =>
    if c = quote then some ([], rest)
    else if c = '\\' || isLineEnd c then none
    else
      match readText? quote rest with
      | some (content, rest) => some (c.toNat :: content, rest)
      | none => none

/-- The token at the head of a text that begins with `c`, and what comes after it. -/
def readToken? (c : Char) (rest : List Char) : Option (Token × List Char) :=
  match c with
  | '\x7b' => some (.openBrace, rest)
  | '\x7d' => some (.closeBrace, rest)
  | '[' => some (.openBracket, rest)
  | ']' => some (.closeBracket, rest)
  | ':' => some (.colon, rest)
  | ',' => some (.comma, rest)
  | '"' => (readText? '"' rest).map fun (content, rest) => (.text content, rest)
  | '\'' => (readText? '\'' rest).map fun (content, rest) => (.text content, rest)
  | c =>
    if isWordStart c || c = '\\' then
      match readWord (c :: rest) with
      | ([], _, _) => none
      | (name, escaped, rest) => some (.word name escaped, rest)
    else (Numeral.read? (c :: rest)).map fun (n, rest) => (.numeral n, rest)

/-! ## Cutting a text into tokens -/

/-- What follows a comment that ends with its line; the end of the line is left. -/
def afterLine : List Char → List Char
  | [] => []
  | c :: rest => if isLineEnd c then c :: rest else afterLine rest

/-- What follows a comment that has to be closed, if it is. -/
def afterBlock? : List Char → Option (List Char)
  | '*' :: '/' :: rest => some rest
  | _ :: rest => afterBlock? rest
  | [] => none

/-- The tokens of a text. Every step takes a character, so `fuel` need not exceed their number. -/
def scanFrom : (fuel : Nat) → List Char → Option (List Token)
  | _, [] => some []
  | 0, _ :: _ => none
  | fuel + 1, c :: rest =>
    if isBlank c then scanFrom fuel rest
    else
      match c, rest with
      | '/', '/' :: rest => scanFrom fuel (afterLine rest)
      | '/', '*' :: rest =>
        match afterBlock? rest with
        | some rest => scanFrom fuel rest
        | none => none
      | c, rest =>
        match readToken? c rest with
        | some (token, rest) => (scanFrom fuel rest).map (token :: ·)
        | none => none

/-- **The tokens of a text,** if it can be cut into tokens. -/
def scan (text : List Char) : Option (List Token) :=
  scanFrom text.length text

end Detab.Json5
