import Detab.FileSystem.Error
import Detab.FileSystem.Path
import Detab.Glob.Match

set_option relaxedAutoImplicit false
set_option autoImplicit false

/-!
# Match sets

A target that is a directory stands for the files below it whose names match a pattern. They are
read off a *listing*: what one look at the directory and everything below it has shown. Any other
target stands for itself, whatever its name.

## Main definitions

* `Detab.Listing` — the entries of a directory, as far as they can be read.
* `Detab.Target` — what a target has turned out to be.
* `Detab.Listing.visits` — the files and the closed directories of a listing, in order.
* `Detab.Target.matchSet`, `Detab.Target.skipped` — the paths that a target stands for, and the
  directories that had to be left out.

## Design

In each directory entries are taken in the order of their names, byte by byte, and what is in a
subdirectory comes in its place. Symbolic links are not followed: one that leads to a directory is
passed over, and any other one counts as a file, even if it leads nowhere.
-/

namespace Detab

/-- What an entry of a listing is. -/
inductive Kind where
  /-- A file, or a symbolic link that does not lead to a directory. -/
  | file
  /-- A symbolic link that leads to a directory. -/
  | directoryLink
  /-- A directory whose entries are listed below it. -/
  | directory
  /-- A directory that cannot be read. -/
  | closed (cause : IoError)
  deriving DecidableEq, Repr

/-- **The entries of a directory** with what is below each of them; only a directory has anything
below it. -/
inductive Listing where
  | empty
  | entry (name : Name) (kind : Kind) (below : Listing) (rest : Listing)
  deriving DecidableEq, Repr, Inhabited

/-- What a target has turned out to be. -/
inductive Target where
  /-- Not a directory, or nothing at all. -/
  | single
  /-- A directory, with what is in it if it can be read. -/
  | directory (content : Except IoError Listing)

/-- What is met on the way through a listing. -/
inductive Visit where
  /-- A file. -/
  | file (path : Path) (name : Name)
  /-- A directory that cannot be read. -/
  | closed (path : Path) (cause : IoError)
  deriving DecidableEq, Repr

namespace Listing

/-- Puts an entry before the first one with a greater name. -/
def insert (name : Name) (kind : Kind) (below : Listing) : Listing → Listing
  | empty => entry name kind below empty
  | entry n k b rest =>
    if name < n then entry name kind below (entry n k b rest)
    else entry n k b (insert name kind below rest)

/-- The listing with its entries in the order of their names, at every depth. -/
def sorted : Listing → Listing
  | empty => empty
  | entry name kind below rest => insert name kind below.sorted rest.sorted

/-- **What is met on the way through a listing** of the directory at `path`, in order. -/
def visits (path : Path) : Listing → List Visit
  | empty => []
  | entry name kind below rest =>
    let here :=
      match kind with
      | .file => [.file (path.join name) name]
      | .directoryLink => []
      | .directory => below.visits (path.join name)
      | .closed cause => [.closed (path.join name) cause]
    here ++ rest.visits path

end Listing

/-- The path of a visited file whose name matches. A name is matched by its lossy reading. -/
def Visit.match? (pattern : Pattern) : Visit → Option Path
  | .file path name => if pattern.matches (Utf8.lossy name) then some path else none
  | .closed .. => none

/-- The path of a visited directory that cannot be read, with the reason. -/
def Visit.skipped? : Visit → Option (Path × IoError)
  | .file .. => none
  | .closed path cause => some (path, cause)

namespace Target

/-- What is met on the way through a directory; a target that cannot be read is met itself. -/
def visits (path : Path) : Target → List Visit
  | .single => []
  | .directory (.ok listing) => listing.sorted.visits path
  | .directory (.error cause) => [.closed path cause]

/-- **The paths that a target stands for,** in order. -/
def matchSet (pattern : Pattern) (path : Path) : Target → List Path
  | .single => [path]
  | target => (target.visits path).filterMap (Visit.match? pattern)

/-- The directories that had to be left out, in order, each with the reason. -/
def skipped (path : Path) (target : Target) : List (Path × IoError) :=
  (target.visits path).filterMap Visit.skipped?

end Target

end Detab
