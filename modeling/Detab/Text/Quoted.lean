import Detab.Text.GraphemeExtend
import Detab.Text.Unprintable
import Detab.Text.Utf8

set_option relaxedAutoImplicit false
set_option autoImplicit false

/-!
# Quoted text in messages

A message that must show a text unambiguously puts it between double quotes and shows by an escape
whatever could not be told apart on a screen.

## Main definitions

* `Detab.Quoted.text` — a text between quotes.
* `Detab.Quoted.path` — a path between quotes; bytes that are not UTF-8 are shown one by one.
-/

namespace Detab.Quoted

/-- The digits of a number in base sixteen, in lower case and without leading zeros. -/
def lowerHex (n : Nat) : String :=
  String.ofList (Nat.toDigits 16 n)

/-- A byte in base sixteen, with two digits in upper case. -/
def upperHexByte (b : UInt8) : String :=
  let digits := (Nat.toDigits 16 b.toNat).map Char.toUpper
  String.ofList (List.replicate (2 - digits.length) '0' ++ digits)

/-- A character in a quoted text. An apostrophe stands for itself. -/
def escape (c : Char) : String :=
  match c with
  | '\x00' => "\\0"
  | '\t' => "\\t"
  | '\r' => "\\r"
  | '\n' => "\\n"
  | '\\' => "\\\\"
  | '"' => "\\\""
  | c =>
    if 0x20 ≤ c.toNat && c.toNat < 0x7F then c.toString
    else if graphemeExtend.contains c || unprintable.contains c then
      "\\u\x7b" ++ lowerHex c.toNat ++ "\x7d"
    else c.toString

/-- **A text between quotes.** -/
def text (content : List Char) : String :=
  "\"" ++ String.join (content.map escape) ++ "\""

/-- A piece of a byte string in a quoted path. -/
def escapePiece : Utf8.Piece → String
  | .char c => escape c
  | .malformed bytes => String.join (bytes.map fun b => "\\x" ++ upperHexByte b)

/-- **A path between quotes.** -/
def path (bytes : Bytes) : String :=
  "\"" ++ String.join ((Utf8.decode bytes).map escapePiece) ++ "\""

end Detab.Quoted
