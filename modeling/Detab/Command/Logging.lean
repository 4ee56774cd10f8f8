import Detab.Script
import Detab.Text.Terminal

set_option relaxedAutoImplicit false
set_option autoImplicit false

/-!
# The log on the standard error output

## Main definitions

* `Detab.Command.Logging` — which lines of the log are shown, and how.
* `Detab.Command.Logging.choose` — the choice that options and environment make.
* `Detab.Command.Logging.render` — the text of some lines.
-/

namespace Detab.Command

/-- The rank of a level: the more important, the lower. -/
def rank : Level → Nat
  | .error => 1
  | .warn => 2
  | .info => 3
  | .debug => 4
  | .trace => 5

/-- The name of a level, filled up to five characters. -/
def levelName : Level → String
  | .error => "ERROR"
  | .warn => "WARN "
  | .info => "INFO "
  | .debug => "DEBUG"
  | .trace => "TRACE"

/-- The colour of a level on a terminal. -/
def levelColour : Level → String
  | .error => "\x1b[1m\x1b[31m"
  | .warn => "\x1b[33m"
  | .info => "\x1b[32m"
  | .debug => "\x1b[34m"
  | .trace => "\x1b[36m"

/-- **Which lines of the log are shown, and how.** -/
structure Logging where
  /-- The least important level that is shown; `none` when nothing is. -/
  threshold : Option Level
  /-- Whether colours are used. -/
  coloured : Bool
  deriving DecidableEq, Repr

namespace Logging

/-- The threshold that a word names, in any case. A word that names no level leaves errors. -/
def thresholdOf (word : String) : Option Level :=
  match String.ofList (word.toList.map Char.toLower) with
  | "off" => none
  | "error" => some .error
  | "warn" => some .warn
  | "info" => some .info
  | "debug" => some .debug
  | "trace" => some .trace
  | _ => some .error

/-- **The choice that options and environment make:** `level` and `style` are what the environment
says, if it says anything. -/
def choose (quiet : Bool) (level style : Option String) : Logging where
  threshold :=
    match level with
    | some word => thresholdOf word
    | none => some (if quiet then .warn else .info)
  coloured := style = some "always"

/-- Whether a line is shown. -/
def shows (logging : Logging) (line : LogLine) : Bool :=
  match logging.threshold with
  | none => false
  | some threshold => rank line.level ≤ rank threshold

/-- A text with its further lines indented. -/
def indented (text : String) : String :=
  String.ofList (text.toList.flatMap fun c => if c = '\n' then "\n    ".toList else [c])

/-- The text of one line. Without colours no command to a terminal is left in it, and one that the
line leaves open takes the end of the line with it. -/
def renderLine (logging : Logging) (line : LogLine) : String :=
  let name := levelName line.level
  let body := " " ++ indented line.text ++ "\n"
  if logging.coloured then
    "\x1b[90m[\x1b[0m" ++ levelColour line.level ++ name ++ "\x1b[0m\x1b[90m]\x1b[0m" ++ body
  else Terminal.visible ("[" ++ name ++ "]" ++ body)

/-- **The text of those lines that are shown.** -/
def render (logging : Logging) (lines : List LogLine) : String :=
  String.join ((lines.filter logging.shows).map logging.renderLine)

end Logging

end Detab.Command
