import Detab.Script
import Detab.Text.Quoted

set_option relaxedAutoImplicit false
set_option autoImplicit false

/-!
# Replacing the contents of a file

New contents are written to a temporary file beside the old one, which is then given the old one's
name. Whoever reads the path meanwhile finds either the old contents or the new ones, never a
mixture.

## Main definitions

* `Detab.Replacement.temporaryName` — the name of the temporary file.
* `Detab.Replacement.replace` — the replacement of a file's contents.

## Design

A symbolic link is kept and the file that it leads to is replaced. The new file takes over the mode
of the old one before it gets its name. After any failure the temporary path is removed, also when
it was not this replacement that made a file there.
-/

namespace Detab.Replacement

/-- Why a replacement fails. -/
inductive Error where
  /-- A request failed. -/
  | request (cause : IoError)
  /-- The path names no file. -/
  | noFileName (path : Path)
  /-- The temporary file could not be made. -/
  | creating (temporary : Path) (cause : IoError)
  deriving DecidableEq, Repr

/-- The messages of a failure, from the outermost to its cause. -/
def Error.chain : Error → List String
  | .request cause => [cause.message]
  | .noFileName path => [s!"Path has no file name: {Quoted.path path}"]
  | .creating temporary cause =>
    [s!"creating temporary file {Utf8.display temporary}", cause.message]

/-- The decimal digits of a number. -/
def digits (n : Nat) : Bytes :=
  Utf8.encode (Nat.toDigits 10 n)

/-- **The name of a temporary file:** hidden, made from the name of the file beside it, and unlike
that of any other process or instant. -/
def temporaryName (stamp : Stamp) (name : Name) : Name :=
  utf8 "." ++ name ++ utf8 "." ++ digits stamp.process ++ utf8 "-" ++ digits stamp.nanoseconds ++
    utf8 ".tmp"

/-- The path of a temporary file beside a file. -/
def temporaryPath? (stamp : Stamp) (path : Path) : Option Path :=
  path.sibling? (temporaryName stamp)

/-- A request whose failure is a failure of the replacement. -/
def attempt {α : Type} (script : Script (Except IoError α)) : Action Error α :=
  .ofScript .request script

/-- Writes chunks behind each other to an open file. -/
def appendAll (file : FileId) : List ByteArray → Action Error Unit
  | [] => pure ()
  | bytes :: rest => do
    attempt (.request (.append file bytes))
    appendAll file rest

/-- Fills a new temporary file and gives it the name of the file to be replaced. -/
def writeAndRename (temporary path : Path) (chunks : List ByteArray) (mode : Mode) :
    Action Error Unit := do
  let file ← Action.ofScript (.creating temporary) (.request (.createNew temporary))
  appendAll file chunks
  attempt (.request (.sync file))
  attempt (.request (.setMode temporary mode))
  attempt (.request (.rename temporary path))

/-- The path to be replaced: a symbolic link stands for what it leads to. -/
def destination (path : Path) : Action Error Path := do
  if ← attempt (.request (.isLink path)) then attempt (.request (.canonicalPath path))
  else return path

/-- **Replaces the contents of the file at a path** with the given chunks, one behind the other. -/
def replace (path : Path) (chunks : List ByteArray) : Action Error Unit := do
  let path ← destination path
  let mode ← attempt (.request (.modeOf path))
  let stamp ← (Script.request .stamp : Script Stamp)
  match temporaryPath? stamp path with
  | none => throw (.noFileName path)
  | some temporary =>
    try
      writeAndRename temporary path chunks mode
    catch e =>
      let _ ← (Script.request (.remove temporary) : Script (Except IoError Unit))
      throw e

end Detab.Replacement
