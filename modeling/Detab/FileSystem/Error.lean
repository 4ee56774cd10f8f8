set_option relaxedAutoImplicit false
set_option autoImplicit false

/-!
# Errors of input and output

## Main definitions

* `Detab.IoError` — why a request to the file system or to the output fails.
* `Detab.IoError.message` — its wording.
-/

namespace Detab

/-- Why a request to the file system or to the output fails. -/
inductive IoError where
  | notFound
  | permissionDenied
  | alreadyExists
  | busy
  | notDirectory
  | isDirectory
  | nameTooLong
  | linkLoop
  /-- A path with a zero byte, which no system call can be given. -/
  | zeroByte
  /-- Text was asked for and the bytes are not UTF-8. -/
  | notText
  /-- The output accepts no more bytes. -/
  | outputFull
  /-- Anything else that a real machine may report. -/
  | other (message : String)
  deriving DecidableEq, Repr

/-- The wording of an error. -/
def IoError.message : IoError → String
  | .notFound => "No such file or directory (os error 2)"
  | .permissionDenied => "Permission denied (os error 13)"
  | .alreadyExists => "File exists (os error 17)"
  | .busy => "Device or resource busy (os error 16)"
  | .notDirectory => "Not a directory (os error 20)"
  | .isDirectory => "Is a directory (os error 21)"
  | .nameTooLong => "File name too long (os error 36)"
  | .linkLoop => "Too many levels of symbolic links (os error 40)"
  | .zeroByte => "file name contained an unexpected NUL byte"
  | .notText => "stream did not contain valid UTF-8"
  | .outputFull => "writer full"
  | .other message => message

end Detab
