import Detab.FileSystem.Error
import Detab.FileSystem.Tree

set_option relaxedAutoImplicit false
set_option autoImplicit false

/-!
# Where a path leads

A path is resolved step by step from the root or from the working directory. Every step needs a
directory to start from, and its owner's permission to pass through it. A symbolic link on the way
puts the steps of its target in front of those that are left.

## Main definitions

* `Detab.FileSystem.Walk` — how a path is to be resolved.
* `Detab.FileSystem.resolve` — the place that a path leads to.
* `Detab.FileSystem.lastStep` — the directory that holds the last step of a path, and that step.

## Design

At most `maxLinks` links are followed. The recursion is on the number of links that may still be
followed and, for each of them, on the steps that are left.
-/

namespace Detab.FileSystem

open Detab.Path

/-- How a path is to be resolved. -/
structure Walk where
  /-- Whether a symbolic link at the very end is followed. -/
  followLast : Bool
  /-- Whether dots need the permission to pass through the directory that they are taken in. -/
  searchDots : Bool
  deriving DecidableEq, Repr

namespace Walk

/-- Resolution to the entry itself, when that is a link. -/
def toEntry : Walk := ⟨false, true⟩

/-- Resolution through all links. -/
def toFile : Walk := ⟨true, true⟩

/-- Resolution by names alone: dots are taken off the text. This is where a canonical path leads, if
the names on the way can be looked up from the root (see `Detab.FileSystem.canonicalPlace`). -/
def canonical : Walk := ⟨true, false⟩

end Walk

/-- The number of links that may be followed. -/
def maxLinks : Nat := 40

/-- The greatest length of a name. -/
def maxName : Nat := 255

/-- The greatest length of a path. -/
def maxPath : Nat := 4095

/-- Where a path starts, when it is met in a directory. -/
def startOf (path : Path) (here : Place) : Place :=
  if isAbsolute path then [] else here

/-- Takes steps from a directory. `jump` goes on after a link has been met. -/
def takeSteps (fs : FileSystem) (walk : Walk)
    (jump : Place → List Step → Except IoError Place) :
    Place → List Step → Except IoError Place
  | here, [] => .ok here
  | here, step :: rest =>
    match fs.entry? here with
    | none => .error .notFound
    | some (.leaf _) => .error .notDirectory
    | some (.directory mode entries) =>
      match step with
      | .directory => takeSteps fs walk jump here rest
      | .stay =>
        if walk.searchDots && !mode.canSearch then .error .permissionDenied
        else takeSteps fs walk jump here rest
      | .up =>
        if walk.searchDots && !mode.canSearch then .error .permissionDenied
        else takeSteps fs walk jump here.dropLast rest
      | .name n =>
        if !mode.canSearch then .error .permissionDenied
        else if maxName < n.length then .error .nameTooLong
        else
          match entries.find? n with
          | none => .error .notFound
          | some (.leaf (.link target)) =>
            if rest.isEmpty && !walk.followLast then .ok (here ++ [n])
            else jump (startOf target here) (steps target ++ rest)
          | some _ => takeSteps fs walk jump (here ++ [n]) rest

/-- Takes steps from a directory and follows at most `links` links. -/
def walkFrom (fs : FileSystem) (walk : Walk) : (links : Nat) → Place → List Step →
    Except IoError Place
  | 0 => takeSteps fs walk fun _ _ => .error .linkLoop
  | links + 1 => takeSteps fs walk (walkFrom fs walk links)

/-- What keeps a path from being looked up at all. -/
def spellingError? (path : Path) : Option IoError :=
  if path.contains 0 then some .zeroByte
  else if path.isEmpty then some .notFound
  else if maxPath < path.length then some .nameTooLong
  else none

/-- **The place that a path leads to.** -/
def resolve (fs : FileSystem) (walk : Walk) (path : Path) : Except IoError Place :=
  match spellingError? path with
  | some e => .error e
  | none => walkFrom fs walk maxLinks (startOf path fs.workingDirectory) (steps path)

/-- The entry that a path leads to. -/
def lookUp (fs : FileSystem) (walk : Walk) (path : Path) : Except IoError Entry :=
  match fs.resolve walk path with
  | .error e => .error e
  | .ok place =>
    match fs.entry? place with
    | some entry => .ok entry
    | none => .error .notFound

/-! ## The last step -/

/-- The last step of a path, for operations that make, replace or remove an entry. -/
inductive LastStep where
  /-- A name in the directory at `parent`, which has this mode and these entries;
  `asDirectory` when a slash follows the name. -/
  | entry (parent : Place) (mode : Mode) (entries : Directory) (name : Name)
      (asDirectory : Bool)
  /-- The root, or a step that names no entry. -/
  | nameless
  deriving DecidableEq, Repr

/-- **The directory that holds the last step of a path, and that step.** The directory has to be one
that can be passed through, and a name must not be too long to be looked up. -/
def lastStep (fs : FileSystem) (path : Path) : Except IoError LastStep :=
  match spellingError? path with
  | some e => .error e
  | none =>
    let all := steps path
    let asDirectory := all.getLast? = some .directory
    let all := if asDirectory then all.dropLast else all
    match walkFrom fs .toFile maxLinks (startOf path fs.workingDirectory) all.dropLast with
    | .error e => .error e
    | .ok parent =>
      match fs.entry? parent, all.getLast? with
      | _, none => .ok .nameless
      | none, _ => .error .notFound
      | some (.leaf _), _ => .error .notDirectory
      | some (.directory mode entries), some last =>
        if !mode.canSearch then .error .permissionDenied
        else
          match last with
          | .name n =>
            if maxName < n.length then .error .nameTooLong
            else .ok (.entry parent mode entries n asDirectory)
          | _ => .ok .nameless

end Detab.FileSystem
