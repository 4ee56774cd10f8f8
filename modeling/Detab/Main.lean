import Detab.Command.Run
import Detab.FileSystem.Image
import Detab.World

set_option relaxedAutoImplicit false
set_option autoImplicit false

/-!
# The command line

The command is run on a file tree that is described on the standard input, and the tree that it
leaves is described on the standard output, after what the command itself prints. Nothing on a disk
is touched: the runtime library can neither tell nor set all the permission bits that a replacement
has to keep.
-/

namespace Detab

/-- The lines of a stream, without their ends. -/
partial def readLines (input : IO.FS.Stream) (lines : List String) : IO (List String) := do
  let line ← input.getLine
  if line.isEmpty then return lines.reverse
  readLines input (String.ofList (line.toList.filter (· ≠ '\n')) :: lines)

/-- Runs the command and answers its exit code. -/
def runCommand (arguments : List String) : IO UInt32 := do
  let fs := Image.ofLines (← readLines (← IO.getStdin) [])
  let arguments := arguments.map utf8
  let logging := Command.loggingFor arguments (← IO.getEnv "TABS2SPACES_LOG")
    (← IO.getEnv "TABS2SPACES_LOG_STYLE")
  let start : World := ⟨fs, .start 1 id none⟩
  let (result, world) := (Command.execute .standard arguments).run.run start
  let output ← IO.getStdout
  output.write (pack world.session.written)
  for line in Image.toLines world.fs do
    output.putStrLn line
  let errors ← IO.getStderr
  errors.putStr (logging.render world.session.log)
  match result with
  | .ok () => return 0
  | .error failure =>
    errors.putStr failure.text
    return failure.exitCode.toUInt32

end Detab

/-- The program. -/
def main (arguments : List String) : IO UInt32 :=
  Detab.runCommand arguments
