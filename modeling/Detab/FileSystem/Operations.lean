import Detab.FileSystem.Resolve

set_option relaxedAutoImplicit false
set_option autoImplicit false

/-!
# Operations of a file system

Each operation is one atomic step: it fails and changes nothing, or it succeeds and changes one
directory or one file. The process is an ordinary user who owns everything, so the owner's
permission bits decide.

## Main definitions

* `Detab.FileSystem.isDirectory`, `Detab.FileSystem.isLink`, `Detab.FileSystem.readLink`,
  `Detab.FileSystem.modeOf` — what a path leads to.
* `Detab.FileSystem.canonicalPlace`, `Detab.FileSystem.canonicalPath` — the absolute path without
  links that leads to the same entry, found by looking up every name from the root.
* `Detab.FileSystem.read` — the contents of a file.
* `Detab.FileSystem.openDirectory` — the entries of a directory.
* `Detab.FileSystem.createNew`, `Detab.FileSystem.append`, `Detab.FileSystem.setMode`,
  `Detab.FileSystem.rename`, `Detab.FileSystem.remove` — the changes.
-/

namespace Detab.FileSystem

open Detab.Path

/-! ## Looking -/

/-- Whether a path leads to a directory, through all links. -/
def isDirectory (fs : FileSystem) (path : Path) : Bool :=
  match fs.lookUp .toFile path with
  | .ok (.directory ..) => true
  | _ => false

/-- Whether a path leads to a symbolic link. -/
def isLink (fs : FileSystem) (path : Path) : Except IoError Bool :=
  match fs.lookUp .toEntry path with
  | .error e => .error e
  | .ok (.leaf (.link _)) => .ok true
  | .ok _ => .ok false

/-- The mode of what a path leads to, through all links. -/
def modeOf (fs : FileSystem) (path : Path) : Except IoError Mode :=
  match fs.lookUp .toFile path with
  | .error e => .error e
  | .ok (.directory mode _) => .ok mode
  | .ok (.leaf (.link _)) => .error .notFound
  | .ok (.leaf (.file id)) =>
    match fs.files[id]? with
    | some file => .ok file.mode
    | none => .error .notFound

/-- The path of a place. -/
def pathOf (place : Place) : Path :=
  Path.ofPieces ([] :: if place.isEmpty then [[]] else place)

/-- The target of the symbolic link that a path leads to, or none where it leads to something
else. -/
def readLink (fs : FileSystem) (path : Path) : Except IoError (Option Path) :=
  match fs.lookUp .toEntry path with
  | .error e => .error e
  | .ok (.leaf (.link target)) => .ok (some target)
  | .ok _ => .ok none

/-- **Takes steps for a canonical path.** Every name is looked up under its path from the root. So all
directories above it have to be such that they can be passed through, those above the working
directory too, and that path must not be too long. A dot is taken off the text, wherever it is met in
a directory. `jump` goes on after a link has been met. -/
def canonicalSteps (fs : FileSystem) (jump : Place → List Step → Except IoError Place) :
    Place → List Step → Except IoError Place
  | here, [] => .ok here
  | here, .name n :: rest =>
    match fs.readLink (pathOf (here ++ [n])) with
    | .error e => .error e
    | .ok none => canonicalSteps fs jump (here ++ [n]) rest
    | .ok (some target) => jump (startOf target here) (steps target ++ rest)
  | here, dots :: rest =>
    match fs.entry? here with
    | none => .error .notFound
    | some (.leaf _) => .error .notDirectory
    | some (.directory ..) =>
      canonicalSteps fs jump (if dots = .up then here.dropLast else here) rest

/-- Takes steps for a canonical path and follows at most `links` links. -/
def canonicalFrom (fs : FileSystem) : (links : Nat) → Place → List Step → Except IoError Place
  | 0 => canonicalSteps fs fun _ _ => .error .linkLoop
  | links + 1 => canonicalSteps fs (canonicalFrom fs links)

/-- **The place of what a path leads to,** when every name on the way is looked up from the root. Where
the working directory cannot be reached from there, a relative path leads nowhere as soon as a name in
that directory or below it has to be looked up: permission is denied, although the path can be opened. -/
def canonicalPlace (fs : FileSystem) (path : Path) : Except IoError Place :=
  match spellingError? path with
  | some e => .error e
  | none => canonicalFrom fs maxLinks (startOf path fs.workingDirectory) (steps path)

/-- **The canonical path** of what a path leads to: absolute, and without links and dots. Every name on
the way is looked up from the root, so for a relative path permission is denied where the working
directory cannot be reached from there (`canonicalPlace`). -/
def canonicalPath (fs : FileSystem) (path : Path) : Except IoError Path :=
  (fs.canonicalPlace path).map pathOf

/-- The contents of the file that a path leads to, through all links. -/
def read (fs : FileSystem) (path : Path) : Except IoError ByteArray :=
  match fs.lookUp .toFile path with
  | .error e => .error e
  | .ok (.directory mode _) =>
    .error (if mode.canRead then .isDirectory else .permissionDenied)
  | .ok (.leaf (.link _)) => .error .notFound
  | .ok (.leaf (.file id)) =>
    match fs.files[id]? with
    | some file => if file.mode.canRead then .ok file.contents else .error .permissionDenied
    | none => .error .notFound

/-- The entries of the directory that a path leads to, through all links. -/
def openDirectory (fs : FileSystem) (path : Path) : Except IoError Directory :=
  match fs.lookUp .toFile path with
  | .error e => .error e
  | .ok (.leaf _) => .error .notDirectory
  | .ok (.directory mode entries) =>
    if mode.canRead then .ok entries else .error .permissionDenied

/-! ## Changing -/

/-- **Makes a new, empty file** and answers its number. What exists already is left alone. -/
def createNew (fs : FileSystem) (path : Path) : Except IoError (FileId × FileSystem) :=
  match fs.lastStep path with
  | .error e => .error e
  | .ok .nameless => .error .isDirectory
  | .ok (.entry parent mode entries name asDirectory) =>
    if asDirectory then .error .isDirectory
    else
      match entries.find? name with
      | some _ => .error .alreadyExists
      | none =>
        if mode.canWrite then
          let id := fs.files.length
          let file : File := ⟨.empty, .newFile⟩
          let fs := { fs with files := fs.files ++ [file] }
          .ok (id, fs.changeAt parent (Directory.addLeaf name (.file id)))
        else .error .permissionDenied

/-- Writes behind the contents of a file that was opened for writing. -/
def append (fs : FileSystem) (id : FileId) (bytes : ByteArray) : FileSystem :=
  fs.changeFile id fun file => { file with contents := file.contents ++ bytes }

/-- Sets the mode of what a path leads to, through all links. -/
def setMode (fs : FileSystem) (path : Path) (mode : Mode) : Except IoError FileSystem :=
  match fs.resolve .toFile path with
  | .error e => .error e
  | .ok place =>
    match fs.entry? place with
    | some (.leaf (.file id)) => .ok (fs.changeFile id fun file => { file with mode := mode })
    | some (.directory ..) => .ok (fs.changeDirectory place fun _ entries => (mode, entries))
    | _ => .error .notFound

/-- Removes the name of a file, or a symbolic link. -/
def remove (fs : FileSystem) (path : Path) : Except IoError FileSystem :=
  match fs.lastStep path with
  | .error e => .error e
  | .ok .nameless => .error .isDirectory
  | .ok (.entry parent mode entries name asDirectory) =>
    match entries.find? name with
    | none => .error .notFound
    | some (.directory ..) =>
      .error (if mode.canWrite then .isDirectory else .permissionDenied)
    | some (.leaf _) =>
      if asDirectory then .error .notDirectory
      else if mode.canWrite then .ok (fs.changeAt parent (Directory.removeLeaf name))
      else .error .permissionDenied

/-- The directory with a leaf at a name, in the place of the leaf that was there, if any. -/
def putLeaf (entries : Directory) (name : Name) (leaf : Leaf) : Directory :=
  match entries.find? name with
  | some _ => entries.replaceLeaf name leaf
  | none => entries.addLeaf name leaf

/-- **Gives a file another name,** in the place of what had that name. Only files and links are
moved: for a directory the request is refused. Two names of one file are both kept. -/
def rename (fs : FileSystem) (source target : Path) : Except IoError FileSystem :=
  match fs.lastStep source, fs.lastStep target with
  | .error e, _ => .error e
  | _, .error e => .error e
  | .ok .nameless, _ => .error .busy
  | _, .ok .nameless => .error .busy
  | .ok (.entry sourceParent sourceMode sourceEntries sourceName sourceAsDirectory),
    .ok (.entry targetParent targetMode targetEntries targetName targetAsDirectory) =>
    match sourceEntries.find? sourceName with
    | none => .error .notFound
    | some (.directory ..) => .error .isDirectory
    | some (.leaf leaf) =>
      if sourceAsDirectory || targetAsDirectory then .error .notDirectory
      else
        let existing := targetEntries.find? targetName
        let samePlace := sourceParent = targetParent && sourceName = targetName
        if existing = some (.leaf leaf) && (samePlace || !(leaf matches .link _)) then .ok fs
        else if !sourceMode.canWrite || !targetMode.canWrite then .error .permissionDenied
        else
          match existing with
          | some (.directory ..) => .error .isDirectory
          | _ =>
            let fs := fs.changeAt targetParent fun entries => putLeaf entries targetName leaf
            .ok (fs.changeAt sourceParent (Directory.removeLeaf sourceName))

end Detab.FileSystem
