import Detab.FileSystem.Tree

set_option relaxedAutoImplicit false
set_option autoImplicit false

/-!
# What a file system holds

Two file systems hold the same when every place holds the same in both: a file with its contents
and mode, a link with its target, or a directory with its mode. The numbers of files do not count.

## Main definitions

* `Detab.Item` — what a place holds.
* `Detab.FileSystem.item?` — what a place of a file system holds.
* `Detab.FileSystem.snapshot` — everything below the working directory.
* `Detab.FileSystem.addFile`, `Detab.FileSystem.addLeaf`, `Detab.FileSystem.addDirectory` — building
  a file system entry by entry.
-/

namespace Detab

/-- What a place holds. -/
inductive Item where
  | file (contents : ByteArray) (mode : Mode)
  | link (target : Path)
  | directory (mode : Mode)
  deriving DecidableEq

namespace FileSystem

/-- What a leaf holds; a name of no file holds nothing. -/
def itemOfLeaf? (files : List File) : Leaf → Option Item
  | .file id => files[id]?.map fun file => .file file.contents file.mode
  | .link target => some (.link target)

/-- What an entry holds itself. -/
def itemOf? (files : List File) : Entry → Option Item
  | .leaf leaf => itemOfLeaf? files leaf
  | .directory mode _ => some (.directory mode)

/-- **What a place holds.** -/
def item? (fs : FileSystem) (place : Place) : Option Item :=
  (fs.entry? place).bind (itemOf? fs.files)

/-- Everything in a directory and below it, with paths from the directory at `path`. -/
def itemsFrom (files : List File) (path : Path) : Directory → List (Path × Item)
  | .empty => []
  | .leaf name leaf rest =>
    ((itemOfLeaf? files leaf).map fun item => (path.join name, item)).toList ++
      itemsFrom files path rest
  | .sub name mode entries rest =>
    (path.join name, .directory mode) :: itemsFrom files (path.join name) entries ++
      itemsFrom files path rest

/-- **Everything below the working directory,** by paths that start there. -/
def snapshot (fs : FileSystem) : List (Path × Item) :=
  match fs.entry? fs.workingDirectory with
  | some (.directory _ entries) => itemsFrom fs.files [] entries
  | _ => []

/-! ## Building -/

/-- The file system with a new file in the directory at a place. -/
def addFile (fs : FileSystem) (place : Place) (name : Name) (file : File) : FileSystem :=
  let id := fs.files.length
  { fs with files := fs.files ++ [file] }.changeAt place (Directory.addLeaf name (.file id))

/-- The file system with another leaf in the directory at a place: a link, or one more name of a
file. -/
def addLeaf (fs : FileSystem) (place : Place) (name : Name) (leaf : Leaf) : FileSystem :=
  fs.changeAt place (Directory.addLeaf name leaf)

/-- The file system with a new, empty directory in the directory at a place. -/
def addDirectory (fs : FileSystem) (place : Place) (name : Name) (mode : Mode) : FileSystem :=
  fs.changeAt place (Directory.addSub name mode)

end FileSystem

end Detab
