import Detab.Text.Utf8

set_option relaxedAutoImplicit false
set_option autoImplicit false

/-!
# Paths

A path is a byte string that a slash cuts into pieces. It is read in two ways. For the file system
it is a walk of *steps*, each from the directory reached so far. For naming a file beside another
one it is a parent and a file name, found on the text alone: empty pieces and single dots at the end
do not count.

## Main definitions

* `Detab.Path.pieces` — the pieces between slashes.
* `Detab.Path.steps` — the walk that a path describes.
* `Detab.Path.join` — a path extended by a name.
* `Detab.Path.splitName?` — the pieces of the parent, and the file name.
* `Detab.Path.sibling?` — the path of a file in the same parent.
-/

namespace Detab

/-- The name of an entry in a directory. -/
abbrev Name := Bytes

/-- A path, of any spelling. -/
abbrev Path := Bytes

namespace Path

/-- The byte between the pieces of a path. -/
def slash : UInt8 := 0x2F

/-- The piece for the directory itself. -/
def dot : Bytes := [0x2E]

/-- The piece for the directory above. -/
def dotDot : Bytes := [0x2E, 0x2E]

/-- **The pieces of a path:** what stands between its slashes, so there is one more than there are
slashes. -/
def pieces : Path → List Bytes
  | [] => [[]]
  | b :: rest =>
    match pieces rest with
    | [] => [[b]]
    | first :: others => if b = slash then [] :: first :: others else (b :: first) :: others

/-- The path with the given pieces. -/
def ofPieces : List Bytes → Path
  | [] => []
  | [last] => last
  | piece :: rest => piece ++ slash :: ofPieces rest

/-- Whether a path starts from the root. -/
def isAbsolute (path : Path) : Bool :=
  path.head? == some slash

/-! ## Walking -/

/-- One step of a walk through the file system. -/
inductive Step where
  /-- To the entry of this name. -/
  | name (n : Name)
  /-- Stay: a single dot. -/
  | stay
  /-- To the directory above: two dots. -/
  | up
  /-- Stay, in what has to be a directory: a slash at the end. -/
  | directory
  deriving DecidableEq, Repr

/-- The step for a piece; an empty piece is none. -/
def step? (piece : Bytes) : Option Step :=
  if piece = [] then none
  else if piece = dot then some .stay
  else if piece = dotDot then some .up
  else some (.name piece)

/-- **The walk that a path describes,** from the root or from where one stands. -/
def steps (path : Path) : List Step :=
  (pieces path).filterMap step? ++ (if path.getLast? = some slash then [.directory] else [])

/-- A path extended by a name. -/
def join (path : Path) (name : Name) : Path :=
  if path.getLast? = some slash || path.isEmpty then path ++ name else path ++ slash :: name

/-! ## Parents and file names -/

/-- Whether a piece at the end of a path does not count. -/
def isIdle (piece : Bytes) : Bool :=
  piece = [] || piece = dot

/-- The pieces of a path without the idle ones at its end. The first piece is kept: it tells an
absolute path, and a path that starts at a dot, from others. -/
def trimEnd : List Bytes → List Bytes
  | [] => []
  | first :: rest => first :: (rest.reverse.dropWhile isIdle).reverse

/-- **The pieces of the parent, and the file name.** A path has no file name when its last piece
that counts is the root, two dots, or a dot at its beginning. -/
def splitName? (path : Path) : Option (List Bytes × Name) :=
  match trimEnd (pieces path) with
  | [] => none
  | [only] => if isIdle only || only = dotDot then none else some ([], only)
  | first :: rest =>
    let last := rest.getLast?.getD []
    if last = dotDot then none else some (trimEnd (first :: rest.dropLast), last)

/-- The file name of a path. -/
def fileName? (path : Path) : Option Name :=
  (splitName? path).map Prod.snd

/-- **The path of a file beside the given one,** whose name is made from its name. -/
def sibling? (rename : Name → Name) (path : Path) : Option Path :=
  (splitName? path).map fun (parent, name) => ofPieces (parent ++ [rename name])

end Path

end Detab
