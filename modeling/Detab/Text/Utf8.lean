import Detab.Bytes

set_option relaxedAutoImplicit false
set_option autoImplicit false

/-!
# UTF-8 text in byte strings

File names, paths and file contents are byte strings, and nothing promises that they hold
well-formed UTF-8. One decoder, `Utf8.decode`, cuts any byte string into *pieces*: characters,
and maximal malformed runs. Two views are read off the pieces: the strict one (`Utf8.strict?`),
which exists when there is no malformed piece, and the lossy one (`Utf8.lossy`), which shows
each malformed piece as U+FFFD.

## Main definitions

* `Detab.Utf8.Piece` — a character, or a malformed run with its bytes.
* `Detab.Utf8.decode` — the pieces of a byte string, in order.
* `Detab.Utf8.strict?`, `Detab.Utf8.lossy` — the two readings of a byte string as text.
* `Detab.Utf8.encode` — the byte string of a text.

## Design

The decoder is an automaton with four kinds of state: between characters, or inside a multi-byte
sequence that has been well formed so far. A byte that cannot continue the open sequence ends it
as a malformed piece and is then read afresh, so a malformed piece is always as long as some
well-formed sequence would have allowed, and no ASCII byte is ever part of one.
-/

namespace Detab

namespace Utf8

/-- What a byte string holds at one place. -/
inductive Piece where
  /-- A well-formed character. -/
  | char (c : Char)
  /-- A maximal malformed run: bytes that begin no character, or begin one that is not finished. -/
  | malformed (bytes : Bytes)
  deriving DecidableEq, Repr

/-- Where the decoder stands between two bytes. -/
inductive State where
  /-- Between two characters. -/
  | start
  /-- Inside a sequence: `seen` are its bytes so far and `value` their payload, the next byte has
  to lie between `low` and `high`, and after it `more` bytes are missing. -/
  | inside (more : Nat) (low high : UInt8) (value : Nat) (seen : Bytes)
  deriving DecidableEq, Repr

/-- **Reading a byte between characters.** The first byte fixes the length of the sequence, and
the bounds on the second byte keep out overlong forms, surrogates and values over U+10FFFF. -/
def State.first (b : UInt8) : State × List Piece :=
  if b < 0x80 then (.start, [.char (Char.ofNat b.toNat)])
  else if 0xC2 ≤ b && b ≤ 0xDF then (.inside 0 0x80 0xBF (b.toNat % 0x20) [b], [])
  else if b == 0xE0 then (.inside 1 0xA0 0xBF 0 [b], [])
  else if b == 0xED then (.inside 1 0x80 0x9F (b.toNat % 0x10) [b], [])
  else if 0xE1 ≤ b && b ≤ 0xEF then (.inside 1 0x80 0xBF (b.toNat % 0x10) [b], [])
  else if b == 0xF0 then (.inside 2 0x90 0xBF 0 [b], [])
  else if 0xF1 ≤ b && b ≤ 0xF3 then (.inside 2 0x80 0xBF (b.toNat % 0x08) [b], [])
  else if b == 0xF4 then (.inside 2 0x80 0x8F (b.toNat % 0x08) [b], [])
  else (.start, [.malformed [b]])

/-- One step of the decoder: the next state and the pieces that this byte completes. -/
def State.push (s : State) (b : UInt8) : State × List Piece :=
  match s with
  | .start => State.first b
  | .inside more low high value seen =>
    if low ≤ b && b ≤ high then
      let value := value * 0x40 + b.toNat % 0x40
      match more with
      | 0 => (.start, [.char (Char.ofNat value)])
      | more + 1 => (.inside more 0x80 0xBF value (seen ++ [b]), [])
    else
      let (s, pieces) := State.first b
      (s, .malformed seen :: pieces)

/-- The pieces that the end of the bytes completes: an unfinished sequence is malformed. -/
def State.close : State → List Piece
  | .start => []
  | .inside _ _ _ _ seen => [.malformed seen]

/-- The pieces of a byte string that is entered in a given state. -/
def decodeFrom : State → Bytes → List Piece
  | s, [] => s.close
  | s, b :: rest =>
    let (s, pieces) := s.push b
    pieces ++ decodeFrom s rest

/-- **The pieces of a byte string**, in order: its characters and its malformed runs. -/
def decode (bytes : Bytes) : List Piece :=
  decodeFrom .start bytes

/-- The bytes of a piece. -/
def Piece.bytes : Piece → Bytes
  | .char c => String.utf8EncodeChar c
  | .malformed bytes => bytes

/-- The character that a piece is shown as. -/
def Piece.shown : Piece → Char
  | .char c => c
  | .malformed _ => '\uFFFD'

/-- The lossy reading: every malformed run becomes one U+FFFD. -/
def lossy (bytes : Bytes) : List Char :=
  (decode bytes).map Piece.shown

/-- The characters of a list of pieces, if none of them is malformed. -/
def characters? : List Piece → Option (List Char)
  | [] => some []
  | .char c :: rest => (characters? rest).map (c :: ·)
  | .malformed _ :: _ => none

/-- The strict reading: defined when the bytes are well-formed UTF-8. -/
def strict? (bytes : Bytes) : Option (List Char) :=
  characters? (decode bytes)

/-- The UTF-8 encoding of a text. -/
def encode (text : List Char) : Bytes :=
  text.flatMap String.utf8EncodeChar

/-- The lossy reading as a string, for messages. -/
def display (bytes : Bytes) : String :=
  String.ofList (lossy bytes)

end Utf8

/-- The UTF-8 bytes of a string. -/
def utf8 (text : String) : Bytes :=
  Utf8.encode text.toList

end Detab
