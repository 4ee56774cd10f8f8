import Detab.FileSystem.Operations
import Detab.Listing

set_option relaxedAutoImplicit false
set_option autoImplicit false

/-!
# Listing a directory

## Main definitions

* `Detab.FileSystem.listing` — what is in a directory and below it.
* `Detab.FileSystem.survey` — what a target turns out to be.

## Design

Directories are opened by their paths, so one may fail to open because of its own mode, because of
a directory on the way, or because its path is too long. The types of entries come with the listing
of their directory and need no permission; whether a link leads to a directory has to be resolved.
-/

namespace Detab.FileSystem

/-- What is in the directory at `path`, given its entries, and below it. -/
def listing (fs : FileSystem) (path : Path) : Directory → Listing
  | .empty => .empty
  | .leaf name (.file _) rest => .entry name .file .empty (fs.listing path rest)
  | .leaf name (.link _) rest =>
    let kind := if fs.isDirectory (path.join name) then .directoryLink else .file
    .entry name kind .empty (fs.listing path rest)
  | .sub name _ entries rest =>
    match fs.openDirectory (path.join name) with
    | .ok _ => .entry name .directory (fs.listing (path.join name) entries) (fs.listing path rest)
    | .error cause => .entry name (.closed cause) .empty (fs.listing path rest)

/-- **What a target turns out to be.** -/
def survey (fs : FileSystem) (path : Path) : Target :=
  if fs.isDirectory path then .directory ((fs.openDirectory path).map (fs.listing path))
  else .single

end Detab.FileSystem
