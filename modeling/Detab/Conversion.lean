import Detab.Config.Basic
import Detab.Replacement

set_option relaxedAutoImplicit false
set_option autoImplicit false

/-!
# Converting files

The tabs of every file that a target stands for are replaced with spaces, in place. A file without
tabs is not written. The first failure ends the conversion; what was converted stays converted.

## Main definitions

* `Detab.Platform` — what a conversion has to know of the machine it runs on.
* `Detab.Conversion.convertFile` — the conversion of one file.
* `Detab.Conversion.convert` — the conversion of a target.
-/

namespace Detab

/-- **What a conversion has to know of its machine:** which lengths it can reserve memory for, and
into which chunks it cuts what is written to a file. -/
structure Platform where
  canReserve : Nat → Bool
  chunks : ByteArray → List ByteArray
  /-- Nothing is lost in cutting, and the order is kept. -/
  join_chunks : ∀ contents, (chunks contents).flatMap unpack = unpack contents

namespace Platform

/-- The number of bytes that can be addressed on a 64-bit machine. -/
def addressable : Nat := 0x800000000000

/-- A 64-bit machine that writes everything at once. -/
def standard : Platform where
  canReserve length := length < addressable
  chunks contents := [contents]
  join_chunks contents := by simp

end Platform

namespace Conversion

/-- Why a conversion fails. -/
inductive Error where
  | reading (path : Path) (cause : IoError)
  | converting (path : Path) (cause : Expansion.Error)
  | replacing (path : Path) (cause : Replacement.Error)
  /-- The standard output accepts no more. -/
  | output (cause : IoError)
  deriving DecidableEq, Repr

/-- The messages of a failure, from the outermost to its cause. -/
def Error.chain : Error → List String
  | .reading path cause => [s!"reading {Utf8.display path}", cause.message]
  | .converting path cause => s!"converting {Utf8.display path}" :: cause.chain
  | .replacing path cause => s!"replacing {Utf8.display path}" :: cause.chain
  | .output cause => [cause.message]

/-- What was done for a target. -/
structure Summary where
  /-- The number of paths that the target stands for. -/
  matched : Nat
  /-- The number of paths whose files had tabs and were replaced. -/
  modified : Nat
  deriving DecidableEq, Repr

variable (platform : Platform)

/-- **Converts one file** and answers whether it had tabs. -/
def convertFile (path : Path) (width : Width) : Action Error Bool := do
  let contents ← Action.ofScript (.reading path) (.request (.read path))
  match Expansion.expand platform.canReserve contents width with
  | .error cause => throw (.converting path cause)
  | .ok none =>
    log .debug s!"No tabs in {Utf8.display path}"
    return false
  | .ok (some expanded) =>
    Action.ofScript (.replacing path) (Replacement.replace path (platform.chunks expanded)).run
    return true

/-- The line that announces a file. -/
def notice (path : Path) : Bytes :=
  utf8 "Converting " ++ Utf8.encode (Utf8.lossy path) ++ utf8 "\n"

/-- Announces and converts files one after the other, and counts those that had tabs. -/
def convertAll (width : Width) : List Path → Action Error Nat
  | [] => return 0
  | path :: rest => do
    Action.ofScript .output (.request (.print (notice path)))
    let modified ← convertFile platform path width
    let others ← convertAll width rest
    return others + modified.toNat

/-- The line that tells of a directory that had to be left out. -/
def skipLine (path : Path) (cause : IoError) : String :=
  s!"Skipping: IO error for operation on {Utf8.display path}: {cause.message}"

/-- Tells of the directories that had to be left out. -/
def logSkipped : List (Path × IoError) → Script Unit
  | [] => return ()
  | (path, cause) :: rest => do
    log .warn (skipLine path cause)
    logSkipped rest

/-- The paths that a target stands for. They are all known before anything is replaced. -/
def matchSet (pattern : Pattern) (target : Path) : Script (List Path) := do
  let surveyed : Target ← Script.request (.survey target)
  logSkipped (surveyed.skipped target)
  return surveyed.matchSet pattern target

/-- **Converts every file that a target stands for.** -/
def convert (config : Config) (target : Path) : Action Error Summary := do
  let paths ← matchSet config.pattern target
  let modified ← convertAll platform config.width paths
  let matched := paths.length
  log .debug
    s!"{Utf8.display target}: {modified} of {matched} matching files modified"
  return ⟨matched, modified⟩

end Conversion

end Detab
