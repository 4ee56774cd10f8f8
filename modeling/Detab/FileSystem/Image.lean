import Detab.FileSystem.Resolve
import Detab.FileSystem.Snapshot

set_option relaxedAutoImplicit false
set_option autoImplicit false

/-!
# File trees as text

A file tree is written with one entry in a line. The fields of a line are separated by tabs: a
letter for the kind of entry, its mode in base eight, its path, and what it holds. A directory comes
before its entries.

```text
d  755  src
f  644  src/A.java  class A {\n\t}
l  -    src/B.java  A.java
h  -    src/C.java  src/A.java
```

Here `l` is a symbolic link, by its target, and `h` one more name of a file, by another path of it.
Line ends, tabs and backslashes in a field are written `\n`, `\t` and `\\`.

## Main definitions

* `Detab.Image.ofLines` — the file system that some lines describe.
* `Detab.Image.toLines` — the lines that describe a file system.
-/

namespace Detab.Image

/-- A field as it is written. -/
def escape (field : List Char) : List Char :=
  field.flatMap fun c =>
    match c with
    | '\n' => ['\\', 'n']
    | '\t' => ['\\', 't']
    | '\\' => ['\\', '\\']
    | c => [c]

/-- A field from what is written. -/
def unescape : List Char → List Char
  | '\\' :: 'n' :: rest => '\n' :: unescape rest
  | '\\' :: 't' :: rest => '\t' :: unescape rest
  | '\\' :: '\\' :: rest => '\\' :: unescape rest
  | c :: rest => c :: unescape rest
  | [] => []

/-- The fields of a line. -/
def fields : List Char → List (List Char)
  | [] => [[]]
  | c :: rest =>
    match fields rest with
    | [] => [[c]]
    | first :: others => if c = '\t' then [] :: first :: others else (c :: first) :: others

/-- The mode that some digits in base eight spell. -/
def readMode (digits : List Char) : Mode :=
  BitVec.ofNat 12 (digits.foldl (fun n c => n * 8 + (c.toNat - '0'.toNat)) 0)

/-- The file system with the entry of one more line; a line that is not understood adds nothing. -/
def addLine (fs : FileSystem) (line : List Char) : FileSystem :=
  match fields line with
  | kind :: mode :: path :: rest =>
    let names := Path.pieces (Utf8.encode (unescape path))
    let place := fs.workingDirectory ++ names.dropLast
    let name := names.getLast?.getD []
    let held := Utf8.encode (unescape (rest.headD []))
    match kind with
    | ['d'] => fs.addDirectory place name (readMode mode)
    | ['f'] => fs.addFile place name ⟨pack held, readMode mode⟩
    | ['l'] => fs.addLeaf place name (.link held)
    | ['h'] =>
      match fs.lookUp .toEntry held with
      | .ok (.leaf leaf) => fs.addLeaf place name leaf
      | _ => fs
    | _ => fs
  | _ => fs

/-- A file system with nothing but an empty working directory. -/
def blank : FileSystem where
  rootMode := .newDirectory
  root := .empty
  files := []
  workingDirectory := []

/-- **The file system that some lines describe.** -/
def ofLines (lines : List String) : FileSystem :=
  lines.foldl (fun fs line => addLine fs line.toList) blank

/-- The line of an entry. -/
def toLine (path : Path) (item : Item) : String :=
  let field (bytes : Bytes) := String.ofList (escape (Utf8.lossy bytes))
  let octal (mode : Mode) := String.ofList (Nat.toDigits 8 mode.toNat)
  match item with
  | .directory mode => String.intercalate "\t" ["d", octal mode, field path]
  | .file contents mode =>
    String.intercalate "\t" ["f", octal mode, field path, field (unpack contents)]
  | .link target => String.intercalate "\t" ["l", "-", field path, field target]

/-- **The lines that describe a file system.** Every name of a file is written with its contents. -/
def toLines (fs : FileSystem) : List String :=
  fs.snapshot.map fun (path, item) => toLine path item

end Detab.Image
