set_option relaxedAutoImplicit false
set_option autoImplicit false

/-!
# Reports of failures

A failure is told as a chain of messages, from what was being done down to what went wrong.

## Main definitions

* `Detab.Command.oneLine` — a chain in one line.
* `Detab.Command.report` — a chain with its causes set out below it.
-/

namespace Detab.Command

/-- A chain in one line. -/
def oneLine (chain : List String) : String :=
  String.intercalate ": " chain

/-- A text with its further lines indented by `width` spaces. -/
def indentRest (width : Nat) (text : String) : String :=
  let spaces := List.replicate width ' '
  String.ofList (text.toList.flatMap fun c => if c = '\n' then '\n' :: spaces else [c])

/-- A number filled up with spaces to five characters. -/
def padded (n : Nat) : String :=
  let digits := Nat.toDigits 10 n
  String.ofList (List.replicate (5 - digits.length) ' ' ++ digits)

/-- Causes with their numbers, each in a line. -/
def numbered (first : Nat) : List String → String
  | [] => ""
  | cause :: rest =>
    padded first ++ ": " ++ indentRest 7 cause ++ "\n" ++ numbered (first + 1) rest

/-- **A chain with its causes set out below it;** several causes are numbered. -/
def report : List String → String
  | [] => ""
  | [message] => "Error: " ++ message ++ "\n"
  | [message, cause] =>
    "Error: " ++ message ++ "\n\nCaused by:\n    " ++ indentRest 4 cause ++ "\n"
  | message :: causes => "Error: " ++ message ++ "\n\nCaused by:\n" ++ numbered 0 causes

end Detab.Command
