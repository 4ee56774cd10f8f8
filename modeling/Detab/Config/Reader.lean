import Detab.Config.Basic
import Detab.Json5.Value
import Detab.Number.Shortest
import Detab.Text.Quoted

set_option relaxedAutoImplicit false
set_option autoImplicit false

/-!
# Reading settings from a document

The text has to be a JSON5 document. Its value is an object with the members `pattern` and `spaces`,
or an array that holds them by position; null stands for an absent setting.

## Main definitions

* `Detab.Layer.Error` — why a text holds no settings.
* `Detab.Layer.ofValue` — the settings in a value.
* `Detab.Layer.ofText` — the settings in a text.

## Design

The whole text is read before any setting is looked at, so an error of syntax wins over all others.
After that the members are taken in the order in which they are written, each with its key before
its value, and the first error wins.
-/

namespace Detab

namespace Layer

open Json5

/-- The names of the settings. -/
inductive Field where
  | pattern
  | spaces
  deriving DecidableEq, Repr

/-- The name of a setting as it is written. -/
def Field.name : Field → String
  | .pattern => "pattern"
  | .spaces => "spaces"

/-- The setting that a name names. -/
def Field.ofName? (name : List Char) : Option Field :=
  if name = Field.pattern.name.toList then some .pattern
  else if name = Field.spaces.name.toList then some .spaces
  else none

/-- What was found where something else was expected. -/
inductive Found where
  | integer (n : Int)
  | number (x : Binary64)
  | boolean (b : Bool)
  | null
  | array
  | object
  | text (content : List Char)
  deriving DecidableEq, Repr

/-- The wording of what was found. -/
def Found.message : Found → String
  | .integer n => s!"integer `{n}`"
  | .number x => s!"floating point `{x.text}`"
  | .boolean b => s!"boolean `{b}`"
  | .null => "unit value"
  | .array => "sequence"
  | .object => "map"
  | .text content => s!"string {Quoted.text content}"

/-- What was expected. -/
inductive Expected where
  /-- The settings as a whole. -/
  | settings
  /-- A text. -/
  | text
  deriving DecidableEq, Repr

/-- The wording of what was expected. -/
def Expected.message : Expected → String
  | .settings => "struct PartialConfig"
  | .text => "a string"

/-- **Why a text holds no settings.** -/
inductive Error where
  /-- The text is no document. -/
  | noDocument
  /-- A text in which an escape stands for no character. -/
  | noText
  /-- A numeral without a value. -/
  | numeral (cause : Numeral.Error)
  /-- A value of another kind than expected. -/
  | kind (found : Found) (expected : Expected)
  /-- A key that names no setting. -/
  | unknown (name : List Char)
  /-- A setting that is given twice. -/
  | duplicate (field : Field)
  /-- A pattern that cannot be read. -/
  | pattern (content : List Char) (cause : Glob.PatternError)
  /-- A negative number of spaces. -/
  | negative (n : Int)
  deriving DecidableEq, Repr

/-- The wording of an error; a text that is no document gets none. -/
def Error.message? : Error → Option String
  | .noDocument => none
  | .noText => some "error parsing hex prefix"
  | .numeral cause => some cause.message
  | .kind found expected => some s!"invalid type: {found.message}, expected {expected.message}"
  | .unknown name =>
    some s!"unknown field `{String.ofList name}`, expected `pattern` or `spaces`"
  | .duplicate field => some s!"duplicate field `{field.name}`"
  | .pattern content cause => some s!"invalid glob '{String.ofList content}': {cause.message}"
  | .negative n => some s!"spaces must be a non-negative integer, got {n}"

/-! ## Settings -/

/-- The characters of a text. -/
def readText (content : CodePoints) : Except Error (List Char) :=
  match characters? content with
  | some text => .ok text
  | none => .error .noText

/-- What a value is reported as where it was not expected. It has to have a meaning itself. -/
def found (value : Value) : Except Error Found :=
  match value with
  | .null => .ok .null
  | .boolean b => .ok (.boolean b)
  | .numeral n =>
    if n.isInteger then
      match n.toInteger with
      | .ok i => .ok (.integer i)
      | .error cause => .error (.numeral cause)
    else
      match n.toBinary64 with
      | .ok x => .ok (.number x)
      | .error cause => .error (.numeral cause)
  | .text content => (readText content).map .text
  | .array _ => .ok .array
  | .object _ => .ok .object

/-- The error for a value of another kind than expected. -/
def unexpected (value : Value) (expected : Expected) : Error :=
  match found value with
  | .ok found => .kind found expected
  | .error e => e

/-- The pattern that a value gives, or none for null. -/
def readPattern : Value → Except Error (Option Pattern)
  | .null => .ok none
  | .text content => do
    let text ← readText content
    match Pattern.ofText (String.ofList text) with
    | .ok pattern => .ok (some pattern)
    | .error cause => .error (.pattern text cause)
  | value => .error (unexpected value .text)

/-- **The width that a value gives,** or none for null. A number loses its fraction and is kept
within signed 64 bits before its sign is looked at; any other value is no number. -/
def readWidth : Value → Except Error (Option Width)
  | .null => .ok none
  | .numeral n =>
    match n.toBinary64 with
    | .error cause => .error (.numeral cause)
    | .ok x =>
      let n := x.toInt64
      if n < 0 then .error (.negative n) else .ok (some (UInt64.ofNat n.toNat))
  | _ => .error (.numeral .noNumber)

/-! ## Objects and arrays -/

/-- The settings that were given so far; the inner option is empty for null. -/
structure Given where
  pattern : Option (Option Pattern)
  width : Option (Option Width)

/-- Takes one more member. -/
def Given.take (given : Given) (key : CodePoints) (value : Value) : Except Error Given := do
  let name ← readText key
  match Field.ofName? name with
  | none => .error (.unknown name)
  | some .pattern =>
    if given.pattern.isSome then .error (.duplicate .pattern)
    else return { given with pattern := some (← readPattern value) }
  | some .spaces =>
    if given.width.isSome then .error (.duplicate .spaces)
    else return { given with width := some (← readWidth value) }

/-- Takes the members of an object, in order. -/
def Given.takeAll : Given → List (CodePoints × Value) → Except Error Given
  | given, [] => .ok given
  | given, (key, value) :: rest => do
    let given ← given.take key value
    given.takeAll rest

/-- The settings that were given. -/
def Given.layer (given : Given) : Layer where
  pattern := given.pattern.getD none
  width := given.width.getD none

/-- The settings in the items of an array: the pattern, then the width. Further items are not looked
at. -/
def ofItems : List Value → Except Error Layer
  | [] => .ok ⟨none, none⟩
  | [pattern] => do return ⟨← readPattern pattern, none⟩
  | pattern :: width :: _ => do return ⟨← readPattern pattern, ← readWidth width⟩

/-- **The settings in a value.** -/
def ofValue : Value → Except Error Layer
  | .object members => (Given.takeAll ⟨none, none⟩ members).map Given.layer
  | .array items => ofItems items
  | value => .error (unexpected value .settings)

/-- **The settings in a text.** -/
def ofText (text : List Char) : Except Error Layer :=
  match parse? text with
  | some value => ofValue value
  | none => .error .noDocument

end Layer

end Detab
