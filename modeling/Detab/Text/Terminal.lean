set_option relaxedAutoImplicit false
set_option autoImplicit false

/-!
# What a terminal shows of a text

A text that is meant for a person may hold commands to the terminal: colours, moves of the cursor,
a new title for the window. `Terminal.visible` keeps what would be shown and drops the commands, so
that a text from elsewhere cannot give any.

## Main definitions

* `Detab.Terminal.Role` — what a character can be to a command.
* `Detab.Terminal.State` — where in a command a reader stands.
* `Detab.Terminal.Reader` — a state, and whether the command is interrupted.
* `Detab.Terminal.Reader.push` — one step of the reader.
* `Detab.Terminal.visible` — the part of a text that is shown.

## Design

The reader is an automaton with one step per character. A command begins with the character
U+001B. What follows decides how far it reaches: a plain command ends with its first character
that is no *intermediate*, a control sequence with its first *final* character, and a string with a
terminator of its own. A command that the text leaves open reaches to the end of the text.

A blank in a string is part of it. A blank in a command of the first two kinds is shown and
*interrupts* the command: what follows is shown as well, up to the next character that is never
shown, and only then the command goes on. A character outside ASCII that is shown meanwhile gives
the command up.
-/

namespace Detab.Terminal

/-! ## Roles of characters -/

/-- **What a character can be to a command.** -/
inductive Role where
  /-- It breaks off any command. -/
  | cancel
  /-- It begins a command, wherever it stands. -/
  | escape
  /-- A tab, or the end of a line or page. -/
  | blank
  /-- Any other control character. -/
  | control
  /-- It may precede the end of a command. -/
  | intermediate
  /-- A digit, or a sign between or before digits. -/
  | parameter
  /-- It ends a control sequence. -/
  | final
  /-- The character U+007F. -/
  | delete
  /-- A character that is not ASCII. -/
  | wide
  deriving DecidableEq, Repr

/-- The role of a character. -/
def Role.of (c : Char) : Role :=
  let n := c.toNat
  if n = 0x18 ∨ n = 0x1A then .cancel
  else if n = 0x1B then .escape
  else if n = 0x09 ∨ n = 0x0A ∨ n = 0x0C ∨ n = 0x0D then .blank
  else if n < 0x20 then .control
  else if n < 0x30 then .intermediate
  else if n < 0x40 then .parameter
  else if n < 0x7F then .final
  else if n = 0x7F then .delete
  else .wide

/-- Whether a character of this role is shown outside commands. -/
def Role.isShown : Role → Bool
  | .blank | .intermediate | .parameter | .final | .wide => true
  | .cancel | .escape | .control | .delete => false

/-! ## The reader -/

/-- **Where in a command a reader stands.** -/
inductive State where
  /-- Outside commands. -/
  | ground
  /-- Behind the character that begins a command. -/
  | escape
  /-- Behind intermediates of a plain command. -/
  | plain
  /-- In a control sequence. -/
  | sequence
  /-- In a string that a bell ends. -/
  | title
  /-- At the beginning of a device string. -/
  | device
  /-- Behind parameters of a device string. -/
  | deviceParameters
  /-- Behind intermediates of a device string. -/
  | deviceIntermediates
  /-- In a string that a terminator ends. -/
  | string
  deriving DecidableEq, Repr

/-- The state after the first character of a command, when that is a final one. -/
def State.introduced (c : Char) : State :=
  match c with
  | '[' => .sequence
  | ']' => .title
  | 'P' => .device
  | 'X' | '^' | '_' => .string
  | _ => .ground

/-- The byte that ends a string. It counts wherever it lies, also inside the encoding of a
character. -/
def terminator : UInt8 := 0x9C

/-- The next state inside a command that is not interrupted, and whether the character is shown. -/
def State.push (s : State) (c : Char) : State × Bool :=
  match Role.of c, s with
  | .cancel, _ => (.ground, false)
  | .escape, _ => (.escape, false)
  | role, .ground => (.ground, role.isShown)
  -- plain commands and control sequences: a blank is shown and changes nothing
  | .blank, .escape | .blank, .plain | .blank, .sequence => (s, true)
  | .intermediate, .escape => (.plain, false)
  | .parameter, .escape => (.ground, false)
  | .final, .escape => (.introduced c, false)
  | _, .escape => (.escape, false)
  | .parameter, .plain | .final, .plain => (.ground, false)
  | _, .plain => (.plain, false)
  | .final, .sequence => (.ground, false)
  | _, .sequence => (.sequence, false)
  -- strings: nothing in them is shown
  | _, .title => (if c = '\x07' then .ground else .title, false)
  | .intermediate, .device | .intermediate, .deviceParameters => (.deviceIntermediates, false)
  | .parameter, .device => (.deviceParameters, false)
  | .parameter, .deviceParameters => (if c < '<' then .deviceParameters else .string, false)
  | .parameter, .deviceIntermediates => (.string, false)
  | .final, .device | .final, .deviceParameters | .final, .deviceIntermediates => (.string, false)
  | _, .device => (.device, false)
  | _, .deviceParameters => (.deviceParameters, false)
  | _, .deviceIntermediates => (.deviceIntermediates, false)
  | _, .string =>
    (if (String.utf8EncodeChar c).contains terminator then .ground else .string, false)

/-- **A reader of a text:** its state, and whether the command that the state belongs to is
interrupted. Outside commands nothing depends on the latter. -/
structure Reader where
  state : State
  interrupted : Bool
  deriving DecidableEq, Repr

/-- A reader before any text. -/
def Reader.start : Reader := ⟨.ground, false⟩

/-- **One step of the reader:** the next reader, and whether the character is shown. -/
def Reader.push (r : Reader) (c : Char) : Reader × Bool :=
  if r.interrupted && (Role.of c).isShown then
    (if Role.of c = .wide then .start else r, true)
  else
    let (state, isShown) := r.state.push c
    (⟨state, isShown⟩, isShown)

/-- The characters that a reader shows of a text. -/
def Reader.shown : Reader → List Char → List Char
  | _, [] => []
  | r, c :: rest =>
    let (next, isShown) := r.push c
    if isShown then c :: next.shown rest else next.shown rest

/-- **The part of a text that is shown.** -/
def visible (text : String) : String :=
  String.ofList (Reader.start.shown text.toList)

end Detab.Terminal
