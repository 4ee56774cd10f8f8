import Detab.Config.Reader
import Detab.Script

set_option relaxedAutoImplicit false
set_option autoImplicit false

/-!
# Loading settings

The settings of a run are the standard ones, under those of a file if one is named, under those of
the command line.

## Main definitions

* `Detab.Config.readLayer` — the settings in a file.
* `Detab.Config.load` — the settings of a run.
-/

namespace Detab.Config

/-- Why settings cannot be loaded. -/
inductive Error where
  /-- The file cannot be read, or is not text. -/
  | unreadable (path : Path) (cause : IoError)
  /-- The file holds no settings. -/
  | invalid (path : Path) (cause : Layer.Error)
  deriving DecidableEq, Repr

/-- The wording of a failure. -/
def Error.message : Error → String
  | .unreadable path cause => s!"Couldn't read config file ({Utf8.display path}): {cause.message}"
  | .invalid path cause =>
    let start := s!"Config deserialization error ({Utf8.display path})"
    match cause.message? with
    | some message => start ++ ": " ++ message
    | none => start

/-- **The settings in a file.** The whole file has to be text. -/
def readLayer (path : Path) : Action Error Layer := do
  let contents ← Action.ofScript (.unreadable path) (.request (.read path))
  match Utf8.strict? (unpack contents) with
  | none => throw (.unreadable path .notText)
  | some text =>
    match Layer.ofText text with
    | .ok layer => return layer
    | .error cause => throw (.invalid path cause)

/-- **The settings of a run.** The file is read and checked even if the overrides replace all of
it. -/
def load (file : Option Path) (overrides : Layer) : Action Error Config :=
  match file with
  | none => return standard.withLayer overrides
  | some path => do
    log .debug s!"Reading config from {Utf8.display path}"
    let layer ← readLayer path
    return (standard.withLayer layer).withLayer overrides

end Detab.Config
