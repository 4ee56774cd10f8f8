import Detab.FileSystem.Tree
import Detab.Listing

set_option relaxedAutoImplicit false
set_option autoImplicit false

/-!
# Scripts

What the program does to the world is written as a *script*: a tree whose inner nodes are requests
and whose branches are the answers. A script says nothing about how requests are answered. The same
script is run on a real disk, on a model of one, one request at a time, or beside another script.

## Main definitions

* `Detab.Request` — what can be asked of the world, and `Detab.Request.Answer`, the kind of answer.
* `Detab.Script` — a script.
* `Detab.Action` — a script that may fail.

## Main results

* `Detab.Script.bind_done`, `Detab.Script.bind_bind` — scripts form a lawful monad.
-/

namespace Detab

/-! ## Requests -/

/-- How important a line of the log is. -/
inductive Level where
  | error
  | warn
  | info
  | debug
  | trace
  deriving DecidableEq, Repr

/-- A line of the log. -/
structure LogLine where
  level : Level
  text : String
  deriving DecidableEq, Repr

/-- What tells temporary files apart: a process and an instant in its life. -/
structure Stamp where
  process : Nat
  nanoseconds : Nat
  deriving DecidableEq, Repr

/-- **What can be asked of the world.** Each request is answered in one step. -/
inductive Request where
  /-- What is a target, and what is below it? -/
  | survey (path : Path)
  /-- The contents of a file. -/
  | read (path : Path)
  /-- Is this a symbolic link? -/
  | isLink (path : Path)
  /-- The absolute path without links. -/
  | canonicalPath (path : Path)
  /-- The mode of a file. -/
  | modeOf (path : Path)
  /-- Which process is this, and when? -/
  | stamp
  /-- Make a new file and open it for writing; there must be none yet. -/
  | createNew (path : Path)
  /-- Write behind what was written to an open file. -/
  | append (file : FileId) (bytes : ByteArray)
  /-- Wait until what was written to an open file is on the disk. -/
  | sync (file : FileId)
  /-- Set the mode of a file. -/
  | setMode (path : Path) (mode : Mode)
  /-- Give a file another name, in the place of the file that has it. -/
  | rename (source target : Path)
  /-- Remove the name of a file. -/
  | remove (path : Path)
  /-- Write to the standard output. -/
  | print (bytes : Bytes)
  /-- Add a line to the log. -/
  | log (line : LogLine)

/-- The kind of answer to a request. -/
abbrev Request.Answer : Request → Type
  | .survey _ => Target
  | .read _ => Except IoError ByteArray
  | .isLink _ => Except IoError Bool
  | .canonicalPath _ => Except IoError Path
  | .modeOf _ => Except IoError Mode
  | .stamp => Stamp
  | .createNew _ => Except IoError FileId
  | .append .. => Except IoError Unit
  | .sync _ => Except IoError Unit
  | .setMode .. => Except IoError Unit
  | .rename .. => Except IoError Unit
  | .remove _ => Except IoError Unit
  | .print _ => Except IoError Unit
  | .log _ => Unit

/-! ## Scripts -/

/-- **A script:** a result, or a request and how to go on with each answer. -/
inductive Script (α : Type) where
  | done (result : α)
  | ask (request : Request) (next : request.Answer → Script α)

namespace Script

variable {α β ε : Type}

/-- One script after another. -/
def bind : Script α → (α → Script β) → Script β
  | done a, f => f a
  | ask request next, f => ask request fun answer => (next answer).bind f

/-- Scripts follow one another by `bind`, and `done` makes no request. -/
instance : Monad Script where
  pure := done
  bind := bind

/-- A script that nothing is done after is itself. -/
theorem bind_done (script : Script α) : script.bind done = script := by
  induction script with
  | done a => rfl
  | ask request next ih => simp only [bind, ih]

/-- Of three scripts one after another, it does not count which two are put together first. -/
theorem bind_bind {γ : Type} (script : Script α) (f : α → Script β) (g : β → Script γ) :
    (script.bind f).bind g = script.bind fun a => (f a).bind g := by
  induction script with
  | done a => rfl
  | ask request next ih => simp only [bind, ih]

/-- Scripts obey the laws of a monad, so that their equations can be rewritten by the lemmas for all
monads. -/
instance : LawfulMonad Script :=
  LawfulMonad.mk' Script bind_done (fun _ _ => rfl) bind_bind

/-- The script of one request. -/
def request (r : Request) : Script r.Answer :=
  ask r done

end Script

/-- A script that may fail. -/
abbrev Action (ε : Type) := ExceptT ε Script

/-- The action of a script that ends with a result or a failure; `context` says what failed. -/
def Action.ofScript {α ε δ : Type} (context : δ → ε) (script : Script (Except δ α)) : Action ε α :=
  ExceptT.mk (Except.mapError context <$> script)

/-- Adds a line to the log. -/
def log (level : Level) (text : String) : Script Unit :=
  Script.request (.log ⟨level, text⟩)

end Detab
