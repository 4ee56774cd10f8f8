import Detab.Command.Arguments
import Detab.Command.Help
import Detab.Command.Logging
import Detab.Command.Report
import Detab.Config.Loading
import Detab.Conversion

set_option relaxedAutoImplicit false
set_option autoImplicit false

/-!
# The command

## Main definitions

* `Detab.Command.Failure` — why the command fails, with its exit code and its report.
* `Detab.Command.convertTargets` — the conversion of several targets under one configuration.
* `Detab.Command.execute` — the command for some arguments.
* `Detab.Command.loggingFor` — how its log is shown.
-/

namespace Detab.Command

/-- Why the command fails. -/
inductive Failure where
  | arguments (cause : ArgumentError)
  | config (cause : Config.Error)
  | conversion (cause : Conversion.Error)
  /-- A fixed text could not be printed. -/
  | output (cause : IoError)
  deriving DecidableEq, Repr

namespace Failure

/-- The messages of a failure, from the outermost to its cause. -/
def chain : Failure → List String
  | arguments cause => [cause.message]
  | config cause => [cause.message]
  | conversion cause => cause.chain
  | output cause => [cause.message]

/-- The exit code of the command. -/
def exitCode : Failure → Nat
  | arguments _ => 2
  | _ => 1

/-- **What is written to the standard error output.** -/
def text : Failure → String
  | arguments cause => cause.message ++ "\n"
  | failure => report failure.chain

end Failure

/-- Prints a fixed text. -/
def printText (text : String) : Action Failure Unit :=
  .ofScript .output (.request (.print (utf8 text)))

/-- Converts targets one after the other; the first failure ends the run. -/
def convertTargets (platform : Platform) (config : Config) : List Path →
    Action Conversion.Error Unit
  | [] => return ()
  | target :: rest => do
    let _ ← Conversion.convert platform config target
    convertTargets platform config rest

/-- **A run:** the settings are loaded, then every target is converted. -/
def run (platform : Platform) (options : Options) : Action Failure Unit := do
  let overrides : Layer := ⟨options.pattern, options.width⟩
  let config ← Action.ofScript .config (Config.load options.config overrides).run
  log .debug <|
    s!"Replacing tabs with {config.width} spaces in files matching '{config.pattern.text}'"
  Action.ofScript .conversion (convertTargets platform config options.targets).run

/-- **The command for some arguments.** -/
def execute (platform : Platform) (arguments : List Bytes) : Action Failure Unit :=
  match readArguments arguments with
  | .error cause => throw (.arguments cause)
  | .ok .help => printText helpText
  | .ok .version => printText versionText
  | .ok (.run options) =>
    if options.sampleConfig then printText sampleConfig else run platform options

/-- How the log of the command is shown. -/
def loggingFor (arguments : List Bytes) (level style : Option String) : Logging :=
  match readArguments arguments with
  | .ok (.run options) => .choose options.quiet level style
  | _ => .choose false level style

end Detab.Command
