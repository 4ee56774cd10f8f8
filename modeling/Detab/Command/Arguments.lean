import Detab.Config.Basic
import Detab.FileSystem.Path
import Detab.Text.Terminal

set_option relaxedAutoImplicit false
set_option autoImplicit false

/-!
# Arguments of the command

Arguments are taken from left to right, and the first error wins. An option that takes a value may
have it in the same argument or in the next one; a value that stands alone must not begin with a
hyphen, unless it is one. After two hyphens everything is a target.

## Main definitions

* `Detab.Command.Options` — what a run was asked to do.
* `Detab.Command.Invocation` — a run, or a request for help or for the version.
* `Detab.Command.ArgumentError` — what is wrong with the arguments.
* `Detab.Command.readArguments` — the invocation that some arguments spell.

## Design

A value in an argument of its own, and a run of targets, are *pending* until the next option or the
end: only then are they checked. An argument that is no option at all is an error at once, before
what is pending is looked at.
-/

namespace Detab.Command

/-! ## Options -/

/-- An option that takes a value. -/
inductive Valued where
  | spaces
  | pattern
  | config
  deriving DecidableEq, Repr

/-- An option that takes none. -/
inductive Flag where
  | quiet
  | sampleConfig
  | help
  | version
  deriving DecidableEq, Repr

/-- An option. -/
inductive Switch where
  | valued (option : Valued)
  | flag (flag : Flag)
  deriving DecidableEq, Repr

/-- The option of a long name. -/
def Switch.ofLong? (name : String) : Option Switch :=
  match name with
  | "spaces" => some (.valued .spaces)
  | "pattern" => some (.valued .pattern)
  | "config" => some (.valued .config)
  | "quiet" => some (.flag .quiet)
  | "sample-config" => some (.flag .sampleConfig)
  | "help" => some (.flag .help)
  | "version" => some (.flag .version)
  | _ => none

/-- The option of a letter. -/
def Switch.ofLetter? (letter : Char) : Option Switch :=
  match letter with
  | 's' => some (.valued .spaces)
  | 'p' => some (.valued .pattern)
  | 'c' => some (.valued .config)
  | 'q' => some (.flag .quiet)
  | 'h' => some (.flag .help)
  | 'V' => some (.flag .version)
  | _ => none

/-- An option with its value, as it is named in messages. -/
def Valued.usage : Valued → String
  | .spaces => "--spaces <SPACES>"
  | .pattern => "--pattern <PATTERN>"
  | .config => "--config <CONFIG>"

/-- An option without a value, as it is named in messages. -/
def Flag.usage : Flag → String
  | .quiet => "--quiet"
  | .sampleConfig => "--sample-config"
  | .help => "--help"
  | .version => "--version"

/-- The targets, as they are named in messages. -/
def targetsUsage : String := "[TARGETS]..."

/-! ## Errors -/

/-- Why a text is no number of spaces. -/
inductive WidthError where
  | empty
  | invalidDigit
  | tooLarge
  deriving DecidableEq, Repr

/-- The wording of an error. -/
def WidthError.message : WidthError → String
  | .empty => "cannot parse integer from empty string"
  | .invalidDigit => "invalid digit found in string"
  | .tooLarge => "number too large to fit in target type"

/-- **What is wrong with the arguments.** -/
inductive ArgumentError where
  /-- An option that there is not. -/
  | unexpected (argument : String)
  /-- A value that cannot be read. -/
  | invalidValue (value : String) (option : Valued) (reason : String)
  /-- An option without its value, or an empty path. -/
  | missingValue (usage : String)
  /-- An option that is given twice. -/
  | repeated (usage : String)
  /-- A value for an option that takes none. -/
  | unneededValue (value : String) (flag : Flag)
  /-- A value that has to be text and is not. -/
  | notText
  deriving DecidableEq, Repr

/-- The wording of an error. What was given on the command line is shown as a terminal would show
it. -/
def ArgumentError.message : ArgumentError → String
  | .unexpected argument => s!"error: unexpected argument '{Terminal.visible argument}' found"
  | .invalidValue value option reason =>
    s!"error: invalid value '{Terminal.visible value}' for '{option.usage}': {reason}"
  | .missingValue usage => s!"error: a value is required for '{usage}' but none was supplied"
  | .repeated usage => s!"error: the argument '{usage}' cannot be used multiple times"
  | .unneededValue value flag =>
    s!"error: unexpected value '{Terminal.visible value}' for '{flag.usage}' found; " ++
      "no more were expected"
  | .notText => "error: invalid UTF-8 was detected in one or more arguments"

/-! ## Values -/

/-- Reads digits behind a number. A character that is no digit is reported before an overflow at the
same place. -/
def readDigits (value : Nat) : List Char → Except WidthError Nat
  | [] => .ok value
  | c :: rest =>
    if '0' ≤ c ∧ c ≤ '9' then
      let value := value * 10 + (c.toNat - '0'.toNat)
      if value < 2 ^ 64 then readDigits value rest else .error .tooLarge
    else .error .invalidDigit

/-- The number of spaces that a text spells: digits, perhaps behind a plus sign. -/
def readWidth (text : List Char) : Except WidthError Width :=
  match text with
  | [] => .error .empty
  | ['+'] => .error .invalidDigit
  | '+' :: digits => (readDigits 0 digits).map UInt64.ofNat
  | digits => (readDigits 0 digits).map UInt64.ofNat

/-- **What a run was asked to do.** -/
structure Options where
  targets : List Path
  width : Option Width
  pattern : Option Pattern
  config : Option Path
  quiet : Bool
  sampleConfig : Bool
  deriving DecidableEq

/-- Options that nothing was said about. -/
def Options.empty : Options := ⟨[], none, none, none, false, false⟩

/-- A value as text. -/
def textOf (value : Bytes) : Except ArgumentError (List Char) :=
  match Utf8.strict? value with
  | some text => .ok text
  | none => .error .notText

/-- Takes the value of an option. That the option was given before is reported first. -/
def Options.take (options : Options) (option : Valued) (value : Bytes) :
    Except ArgumentError Options :=
  match option with
  | .spaces => do
    if options.width.isSome then throw (.repeated option.usage)
    let text ← textOf value
    match readWidth text with
    | .ok width => return { options with width := width }
    | .error e => throw (.invalidValue (String.ofList text) option e.message)
  | .pattern => do
    if options.pattern.isSome then throw (.repeated option.usage)
    let text ← textOf value
    match Pattern.ofText (String.ofList text) with
    | .ok pattern => return { options with pattern := pattern }
    | .error e => throw (.invalidValue (String.ofList text) option e.message)
  | .config => do
    if options.config.isSome then throw (.repeated option.usage)
    if value.isEmpty then throw (.missingValue option.usage)
    return { options with config := value }

/-! ## Reading arguments -/

/-- What waits for the next argument, or to be checked. -/
inductive Pending where
  | nothing
  /-- An option without its value. -/
  | awaiting (option : Valued)
  /-- An option and its value. -/
  | value (option : Valued) (value : Bytes)
  /-- Some targets. -/
  | targets (paths : List Path)
  deriving DecidableEq, Repr

/-- How far the arguments were read. -/
structure Progress where
  options : Options
  pending : Pending

/-- What the arguments ask for. -/
inductive Invocation where
  | run (options : Options)
  | help
  | version
  deriving DecidableEq

/-- Why reading stops before the end. -/
inductive Stop where
  | error (e : ArgumentError)
  | invocation (i : Invocation)

/-- Checks what is pending. -/
def Progress.settle (progress : Progress) : Except Stop Options :=
  match progress.pending with
  | .nothing => .ok progress.options
  | .awaiting option => .error (.error (.missingValue option.usage))
  | .value option value => (progress.options.take option value).mapError .error
  | .targets paths =>
    if paths.any List.isEmpty then .error (.error (.missingValue targetsUsage))
    else .ok { progress.options with targets := progress.options.targets ++ paths }

/-- Takes a flag. -/
def Progress.flag (progress : Progress) (flag : Flag) : Except Stop Progress := do
  let options ← progress.settle
  match flag with
  | .help => throw (.invocation .help)
  | .version => throw (.invocation .version)
  | .quiet =>
    if options.quiet then throw (.error (.repeated flag.usage))
    return ⟨{ options with quiet := true }, .nothing⟩
  | .sampleConfig =>
    if options.sampleConfig then throw (.error (.repeated flag.usage))
    return ⟨{ options with sampleConfig := true }, .nothing⟩

/-- Takes an option with its value, if that is in the same argument. -/
def Progress.valued (progress : Progress) (option : Valued) (value : Option Bytes) :
    Except Stop Progress := do
  let options ← progress.settle
  match value with
  | some value => return ⟨← (options.take option value).mapError .error, .nothing⟩
  | none => return ⟨options, .awaiting option⟩

/-- The hyphen. -/
def hyphen : UInt8 := 0x2D

/-- The sign between a long option and its value. -/
def equals : UInt8 := 0x3D

/-- Takes an argument that begins with two hyphens, given what follows them. -/
def Progress.long (progress : Progress) (argument : Bytes) : Except Stop Progress :=
  let name := argument.takeWhile (· ≠ equals)
  let value := if argument.contains equals then some (argument.drop (name.length + 1)) else none
  let switch? := (Utf8.strict? name).bind fun text => Switch.ofLong? (String.ofList text)
  match switch?, value with
  | none, _ => .error (.error (.unexpected ("--" ++ Utf8.display name)))
  | some (.valued option), value => progress.valued option value
  | some (.flag flag), some value =>
    .error (.error (.unneededValue (Utf8.display value) flag))
  | some (.flag flag), none => progress.flag flag

/-- Takes the letters of an argument that begins with one hyphen. What follows the letter of an
option that takes a value is its value; an equals sign between them does not count. -/
def Progress.letters (progress : Progress) : List Utf8.Piece → Except Stop Progress
  | [] => .ok progress
  | .malformed bytes :: rest =>
    .error (.error (.unexpected ("-" ++ Utf8.display (bytes ++ rest.flatMap Utf8.Piece.bytes))))
  | .char c :: rest =>
    match Switch.ofLetter? c with
    | none => .error (.error (.unexpected ("-" ++ c.toString)))
    | some (.flag flag) => do
      let progress ← progress.flag flag
      progress.letters rest
    | some (.valued option) =>
      match rest.flatMap Utf8.Piece.bytes with
      | [] => progress.valued option none
      | b :: value => progress.valued option (if b = equals then value else b :: value)

/-- Takes a target. -/
def Progress.operand (progress : Progress) (argument : Bytes) : Except Stop Progress :=
  match progress.pending with
  | .targets paths => .ok { progress with pending := .targets (paths ++ [argument]) }
  | _ => do return ⟨← progress.settle, .targets [argument]⟩

/-- Takes an argument that does not begin with a hyphen, or is only that: a value if an option waits
for one, and else a target. -/
def Progress.plain (progress : Progress) (argument : Bytes) : Except Stop Progress :=
  match progress.pending with
  | .awaiting option => .ok { progress with pending := .value option argument }
  | _ => progress.operand argument

/-- Takes an argument before two hyphens have been met. -/
def Progress.argument (progress : Progress) (argument : Bytes) : Except Stop Progress :=
  match argument with
  | first :: second :: rest =>
    if first = hyphen then
      if second = hyphen then progress.long rest
      else progress.letters (Utf8.decode (second :: rest))
    else progress.plain argument
  | _ => progress.plain argument

/-- Takes arguments after two hyphens have been met: all of them are targets. -/
def Progress.operands (progress : Progress) : List Bytes → Except Stop Progress
  | [] => .ok progress
  | argument :: rest => do
    let progress ← progress.operand argument
    progress.operands rest

/-- Takes arguments. -/
def Progress.arguments (progress : Progress) : List Bytes → Except Stop Progress
  | [] => .ok progress
  | argument :: rest =>
    if argument = [hyphen, hyphen] then progress.operands rest
    else do
      let progress ← progress.argument argument
      progress.arguments rest

/-- The target of a run that names none. -/
def defaultTarget : Path := utf8 "src"

/-- **The invocation that some arguments spell.** -/
def readArguments (arguments : List Bytes) : Except ArgumentError Invocation :=
  let result : Except Stop Options := do
    let progress ← Progress.arguments ⟨.empty, .nothing⟩ arguments
    progress.settle
  match result with
  | .ok options =>
    let targets := if options.targets.isEmpty then [defaultTarget] else options.targets
    .ok (.run { options with targets := targets })
  | .error (.invocation invocation) => .ok invocation
  | .error (.error e) => .error e

end Detab.Command
