import Detab.FileSystem.Path

set_option relaxedAutoImplicit false
set_option autoImplicit false

/-!
# The tree of a file system

A directory holds named entries: files, symbolic links and further directories. The entries of a
file are only its names; the file itself, with its contents and mode, is kept in a table, so that
two names can be hard links to one file.

## Main definitions

* `Detab.Mode` — twelve permission bits.
* `Detab.Directory` — the entries of a directory, in the order in which they were made.
* `Detab.Entry` — what a name stands for.
* `Detab.Place` — the names on the way from the root to an entry.
* `Detab.FileSystem` — a tree, its files, and the directory from which relative paths start.
* `Detab.FileSystem.entry?` — the entry at a place.
* `Detab.FileSystem.changeDirectory`, `Detab.FileSystem.changeAt`,
  `Detab.FileSystem.changeFile` — the file system with one directory or one file changed.

## Design

A directory is a list of its entries in which a subdirectory holds its own entries, so every
function on trees is a recursion on the data. Names are found from the front. The tree says where
names lead; reading permission bits and following links are left to the operations.
-/

namespace Detab

/-! ## Modes -/

/-- The twelve permission bits of a file or directory. -/
abbrev Mode := BitVec 12

namespace Mode

/-- Whether the owner may read. -/
def canRead (mode : Mode) : Bool := mode.getLsbD 8

/-- Whether the owner may write. -/
def canWrite (mode : Mode) : Bool := mode.getLsbD 7

/-- Whether the owner may pass through a directory. -/
def canSearch (mode : Mode) : Bool := mode.getLsbD 6

/-- The mode of a file that was just made. -/
def newFile : Mode := 0o644

/-- The mode of a directory that was just made. -/
def newDirectory : Mode := 0o755

end Mode

/-! ## Directories -/

/-- The number of a file in the table of files. -/
abbrev FileId := Nat

/-- A file. -/
structure File where
  contents : ByteArray
  mode : Mode
  deriving DecidableEq

/-- An entry without entries of its own. -/
inductive Leaf where
  /-- A name of a file. -/
  | file (id : FileId)
  /-- A symbolic link, by the path that it holds. -/
  | link (target : Path)
  deriving DecidableEq, Repr

/-- **The entries of a directory,** in the order in which they were made. -/
inductive Directory where
  | empty
  | leaf (name : Name) (leaf : Leaf) (rest : Directory)
  | sub (name : Name) (mode : Mode) (entries : Directory) (rest : Directory)
  deriving DecidableEq, Repr, Inhabited

/-- What a name stands for. -/
inductive Entry where
  | leaf (leaf : Leaf)
  | directory (mode : Mode) (entries : Directory)
  deriving DecidableEq, Repr

namespace Directory

/-- The entry of a name. -/
def find? (n : Name) : Directory → Option Entry
  | empty => none
  | leaf name l rest => if name = n then some (.leaf l) else rest.find? n
  | sub name mode entries rest =>
    if name = n then some (.directory mode entries) else rest.find? n

/-- The directory with a new leaf behind its other entries. -/
def addLeaf (n : Name) (new : Leaf) : Directory → Directory
  | empty => leaf n new empty
  | leaf name l rest => leaf name l (rest.addLeaf n new)
  | sub name mode entries rest => sub name mode entries (rest.addLeaf n new)

/-- The directory with a new, empty subdirectory behind its other entries. -/
def addSub (n : Name) (m : Mode) : Directory → Directory
  | empty => sub n m empty empty
  | leaf name l rest => leaf name l (rest.addSub n m)
  | sub name mode entries rest => sub name mode entries (rest.addSub n m)

/-- The directory without the leaf of a name. -/
def removeLeaf (n : Name) : Directory → Directory
  | empty => empty
  | leaf name l rest => if name = n then rest else leaf name l (rest.removeLeaf n)
  | sub name mode entries rest => sub name mode entries (rest.removeLeaf n)

/-- The directory with another leaf at a name that has one, in the same place. -/
def replaceLeaf (n : Name) (new : Leaf) : Directory → Directory
  | empty => empty
  | leaf name l rest =>
    if name = n then leaf name new rest else leaf name l (rest.replaceLeaf n new)
  | sub name mode entries rest => sub name mode entries (rest.replaceLeaf n new)

/-- The directory with the mode and the entries of one subdirectory changed. -/
def changeSub (n : Name) (change : Mode → Directory → Mode × Directory) : Directory → Directory
  | empty => empty
  | leaf name l rest => leaf name l (rest.changeSub n change)
  | sub name mode entries rest =>
    if name = n then
      let (mode, entries) := change mode entries
      sub name mode entries rest
    else sub name mode entries (rest.changeSub n change)

end Directory

/-! ## File systems -/

/-- Where an entry is: the names from the root to it. -/
abbrev Place := List Name

namespace Entry

/-- The entry that some names lead to. -/
def follow? : Place → Entry → Option Entry
  | [], entry => some entry
  | n :: rest, .directory _ entries => (entries.find? n).bind (follow? rest)
  | _ :: _, .leaf _ => none

/-- A directory's mode and entries, changed at the place that some names lead to. -/
def changeBelow (change : Mode → Directory → Mode × Directory) :
    Place → Mode → Directory → Mode × Directory
  | [], mode, entries => change mode entries
  | n :: rest, mode, entries => (mode, entries.changeSub n (changeBelow change rest))

end Entry

/-- **A file system:** the mode and the entries of its root, its files by their numbers, and the
directory from which relative paths start. -/
structure FileSystem where
  rootMode : Mode
  root : Directory
  files : List File
  workingDirectory : Place
  deriving DecidableEq

namespace FileSystem

/-- The entry at a place. -/
def entry? (fs : FileSystem) (place : Place) : Option Entry :=
  Entry.follow? place (.directory fs.rootMode fs.root)

/-- The file system with the directory at a place changed. -/
def changeDirectory (fs : FileSystem) (place : Place)
    (change : Mode → Directory → Mode × Directory) : FileSystem :=
  let (mode, entries) := Entry.changeBelow change place fs.rootMode fs.root
  { fs with rootMode := mode, root := entries }

/-- **The file system with the entries of one directory changed.** -/
def changeAt (fs : FileSystem) (place : Place) (change : Directory → Directory) : FileSystem :=
  fs.changeDirectory place fun mode entries => (mode, change entries)

/-- The file system with one file changed. -/
def changeFile (fs : FileSystem) (id : FileId) (change : File → File) : FileSystem :=
  { fs with files := fs.files.modify id change }

end FileSystem

end Detab
