import Detab.Proofs.FileSystem.Canonical
import Detab.Proofs.Running.Faults
import Detab.Replacement

set_option relaxedAutoImplicit false
set_option autoImplicit false

/-!
# Where a replacement puts its temporary file

A replacement first finds out which file it has to replace, and then names a temporary file beside
it. This file follows that choice on the file system alone.

## Main definitions

* `Detab.Replacement.destination?` — the path that is replaced when a path is given.
* `Detab.Replacement.temporary?` — the temporary path that is chosen.
* `Detab.Replacement.Free` — nothing exists yet under the temporary path.
* `Detab.Replacement.TemporaryFits` — the temporary path is not too long.
* `Detab.Replacement.Unhindered` — both.

## Main results

* `Detab.Replacement.isStep_temporaryName` — the temporary name is one, and is not the name of the
  file.
* `Detab.Replacement.settled_of_destination?`, `Detab.Replacement.resolve_of_destination?` — the
  path that is replaced does not end at a link, and leads where the given path leads.
* `Detab.Replacement.lastStep_temporary` — **the temporary file is beside the file.**
* `Detab.Replacement.lastStep_temporary_eq`, `Detab.Replacement.lastStep_temporary_of_fits` — its path
  ends in the directory of the file, unless it has become too long.

## Design

That a temporary name is free is said at three levels: of a path (`FileSystem.Vacant`), of the path that
a replacement chooses (`Free`), and of the request that makes the file (`Unopposed`). They are one
condition. `free_iff_unopposed` says so of a whole replacement, and `free_iff_eq_none` reads it off the
directory of the file. None of them says that the path is short enough to be looked up; `Unhindered` adds
that, and each theorem takes the weaker one unless it promises a success.
-/

namespace Detab.Replacement

open Detab.Path FileSystem

/-! ## Names -/

/-- A decimal digit is one byte, from `0` to `9`. -/
lemma digit_of_mem_utf8EncodeChar {c : Char} (h : c.isDigit) {b : UInt8}
    (hb : b ∈ String.utf8EncodeChar c) : 48 ≤ b.toNat ∧ b.toNat ≤ 57 := by
  obtain ⟨hlow, hhigh⟩ := Char.isDigit_iff_toNat.mp h
  have hlow' : 48 ≤ c.val.toNat := hlow
  have hhigh' : c.val.toNat ≤ 57 := hhigh
  unfold String.utf8EncodeChar at hb
  rw [if_pos (by omega)] at hb
  have hvalue := congrArg UInt8.toNat (List.mem_singleton.mp hb)
  rw [UInt8.toNat_ofNat'] at hvalue
  omega

/-- The digits of a number are the ten decimal ones, as bytes. -/
lemma digit_of_mem_digits {n : Nat} {b : UInt8} (h : b ∈ digits n) :
    48 ≤ b.toNat ∧ b.toNat ≤ 57 := by
  obtain ⟨c, hc, hb⟩ := List.mem_flatMap.mp h
  exact digit_of_mem_utf8EncodeChar (Nat.isDigit_of_mem_toDigits (by decide) (by decide) hc) hb

/-- A byte that is no digit, and not in what is put around the name, is in the temporary name only
if it is in the name. -/
lemma notMem_temporaryName (stamp : Stamp) {name : Name} {b : UInt8} (hdigit : b.toNat < 48)
    (hdot : b ∉ utf8 ".") (hdash : b ∉ utf8 "-") (htmp : b ∉ utf8 ".tmp") (h : b ∉ name) :
    b ∉ temporaryName stamp name := by
  have hdigits : ∀ n, b ∉ digits n := by
    intro n hmem
    have hrange := digit_of_mem_digits hmem
    omega
  simp [temporaryName, hdot, hdash, htmp, h, hdigits]

/-- What is put around the name of a file makes it longer. -/
lemma length_lt_temporaryName (stamp : Stamp) (name : Name) :
    name.length + 6 ≤ (temporaryName stamp name).length := by
  have hdot : (utf8 ".").length = 1 := by decide
  have hdash : (utf8 "-").length = 1 := by decide
  have htmp : (utf8 ".tmp").length = 4 := by decide
  unfold temporaryName
  simp only [List.length_append]
  omega

/-- A temporary name is not the name of its file, because it is longer. -/
lemma temporaryName_ne (stamp : Stamp) (name : Name) : temporaryName stamp name ≠ name := by
  intro h
  have hlength := length_lt_temporaryName stamp name
  rw [h] at hlength
  omega

/-- **The temporary name is a name** when the name of the file is one. -/
lemma isStep_temporaryName (stamp : Stamp) {name : Name} (h : slash ∉ name) :
    IsStep (temporaryName stamp name) := by
  have hlength := length_lt_temporaryName stamp name
  have hdot : dot.length = 1 := rfl
  have hdotDot : dotDot.length = 2 := rfl
  refine ⟨?_, ?_, ?_, ?_⟩
  · intro hnil
    rw [hnil, List.length_nil] at hlength
    omega
  · intro hbad
    rw [hbad] at hlength
    omega
  · intro hbad
    rw [hbad] at hlength
    omega
  · exact notMem_temporaryName stamp (by decide) (by decide) (by decide) (by decide) h

/-! ## The choice -/

/-- **The path that is replaced** when a path is given: a symbolic link stands for what it leads
to. -/
def destination? (fs : FileSystem) (path : Path) : Option Path :=
  match fs.isLink path with
  | .error _ => none
  | .ok true => (fs.canonicalPath path).toOption
  | .ok false => some path

/-- **The temporary path that is chosen,** if a replacement gets that far. -/
def temporary? (fs : FileSystem) (stamp : Stamp) (path : Path) : Option Path :=
  match destination? fs path with
  | none => none
  | some destination =>
    match fs.modeOf destination with
    | .error _ => none
    | .ok _ => temporaryPath? stamp destination

/-- **Nothing exists yet under the temporary path** that a replacement chooses in this world. -/
def Free (world : World) (path : Path) : Prop :=
  ∀ temporary, temporary? world.fs world.session.stamp.1 path = some temporary →
    world.fs.Vacant temporary

/-- Whether the temporary path is free can be computed: at most one path is chosen. -/
instance (world : World) (path : Path) : Decidable (Free world path) :=
  inferInstanceAs (Decidable (∀ temporary ∈ temporary? world.fs world.session.stamp.1 path,
    world.fs.Vacant temporary))

/-- The temporary path that a replacement chooses is not too long, and has no name that is. -/
def TemporaryFits (fs : FileSystem) (stamp : Stamp) (path : Path) : Prop :=
  ∀ temporary ∈ temporary? fs stamp path, Fits temporary

/-- Whether the temporary path fits can be computed. -/
instance (fs : FileSystem) (stamp : Stamp) (path : Path) : Decidable (TemporaryFits fs stamp path) :=
  inferInstanceAs (Decidable (∀ temporary ∈ temporary? fs stamp path, Fits temporary))

/-- **Nothing is in the way of the temporary file** that a replacement makes in this world: its path is
free, and it is not too long. -/
def Unhindered (world : World) (path : Path) : Prop :=
  Free world path ∧ TemporaryFits world.fs world.session.stamp.1 path

/-- Whether something is in the way of the temporary file can be computed. -/
instance (world : World) (path : Path) : Decidable (Unhindered world path) :=
  inferInstanceAs (Decidable (_ ∧ _))

variable {fs : FileSystem} {stamp : Stamp} {path destination temporary : Path}
  {parent parent' goal : Place} {name n : Name} {mode : Mode} {entries : Directory}
  {asDirectory : Bool} {split : List Bytes}

/-- A path that ends with a name has a temporary path, in which everything before the name is the same.
-/
lemma temporaryPath?_of_splitName? (stamp : Stamp)
    (hsplit : destination.splitName? = some (split, name)) :
    temporaryPath? stamp destination = some (ofPieces (split ++ [temporaryName stamp name])) := by
  rw [temporaryPath?, sibling?, hsplit]
  rfl

/-- What a replacement goes for is the path itself, if that is no link, or the canonical path of what it
leads to, which is where its names lead. -/
lemma destination?_eq_some (wf : fs.WellFormed) (h : destination? fs path = some destination) :
    (fs.isLink path = .ok false ∧ destination = path) ∨
      ∃ place, fs.resolve .canonical path = .ok place ∧ destination = pathOf place := by
  unfold destination? at h
  split at h
  · simp at h
  · refine .inr ?_
    rw [canonicalPath] at h
    cases hplace : fs.canonicalPlace path with
    | error e => simp [hplace, Except.map, Except.toOption] at h
    | ok place =>
      exact ⟨place, wf.resolve_of_canonicalPlace hplace,
        by simpa [hplace, Except.map, Except.toOption, eq_comm] using h⟩
  · rename_i hlink
    exact .inl ⟨hlink, (Option.some.inj h).symm⟩

/-- The path that is replaced does not end at a link: either it was found to be none, or it is a
canonical path. -/
lemma settled_of_destination? (wf : fs.WellFormed) (h : destination? fs path = some destination) :
    fs.Settled destination := by
  rcases destination?_eq_some wf h with ⟨hlink, rfl⟩ | ⟨place, hplace, rfl⟩
  · exact settled_of_isLink hlink
  · have hsolid : fs.Solid place := wf.solid_of_resolve rfl hplace
    exact settled_pathOf (wf.isName_of_solid hsolid) hsolid

/-- What a replacement goes for leads where the given path leads. -/
lemma resolve_of_destination? (wf : fs.WellFormed) (h : destination? fs path = some destination)
    (hgoal : fs.resolve .toFile destination = .ok goal) :
    fs.resolve .canonical path = .ok goal := by
  rcases destination?_eq_some wf h with ⟨hlink, rfl⟩ | ⟨place, hplace, rfl⟩
  · exact resolve_canonical hgoal
  · have hsolid : fs.Solid place := wf.solid_of_resolve rfl hplace
    rw [goal_of_resolve_pathOf (wf.isName_of_solid hsolid) hsolid hgoal]
    exact hplace

/-- **The temporary file is beside the file,** whatever the path to the file looks like.

**Proof sketch.** The temporary path is a sibling of the path that is replaced. That one does not
end at a link, so its last step is in the directory of the file. -/
lemma lastStep_temporary (wf : fs.WellFormed) (h : destination? fs path = some destination)
    (htemporary : temporaryPath? stamp destination = some temporary)
    (hgoal : fs.resolve .toFile destination = .ok (parent ++ [name]))
    (hfile : fs.shape? (parent ++ [name]) = some .file)
    (hlast : fs.lastStep temporary = .ok (.entry parent' mode entries n asDirectory)) :
    parent' = parent ∧ n = temporaryName stamp name := by
  obtain ⟨⟨split, name'⟩, hsplit, -⟩ := Option.map_eq_some_iff.mp htemporary
  obtain ⟨-, -, -, -, -, hname', -⟩ := splitName?_spec hsplit
  have hstep : IsStep (temporaryName stamp name') := isStep_temporaryName stamp hname'.2.2.2
  obtain ⟨rfl, rfl⟩ := lastStep_of_sibling hsplit htemporary hstep hlast
  obtain ⟨front, m, e, hend, hdestination⟩ :=
    lastStep_of_resolve_file hsplit (settled_of_destination? wf h) hgoal hfile
  obtain ⟨rfl, hname⟩ := List.append_inj' hend rfl
  obtain rfl : name = name' := by simpa using hname
  exact ⟨(lastStep_sibling hsplit htemporary hstep hdestination hlast).1, rfl⟩

/-- Where a temporary path is chosen, it is for a destination that has a mode. -/
lemma exists_destination_of_temporary? (h : temporary? fs stamp path = some temporary) :
    ∃ destination mode, destination? fs path = some destination ∧
      fs.modeOf destination = .ok mode ∧ temporaryPath? stamp destination = some temporary := by
  unfold temporary? at h
  cases hdestination : destination? fs path with
  | none => simp [hdestination] at h
  | some destination =>
    cases hmode : fs.modeOf destination with
    | error e => simp [hdestination, hmode] at h
    | ok mode => exact ⟨destination, mode, rfl, hmode, by simpa [hdestination, hmode] using h⟩

/-- The temporary path that is chosen for a file ends beside that file. -/
lemma lastStep_of_temporary? (wf : fs.WellFormed) (h : temporary? fs stamp path = some temporary)
    (hgoal : fs.resolve .toFile path = .ok (parent ++ [name]))
    (hfile : fs.shape? (parent ++ [name]) = some .file)
    (hlast : fs.lastStep temporary = .ok (.entry parent' mode entries n asDirectory)) :
    parent' = parent ∧ n = temporaryName stamp name := by
  obtain ⟨destination, m, hdestination, hmode, hchosen⟩ := exists_destination_of_temporary? h
  obtain ⟨goal, hreached⟩ := exists_resolve_of_modeOf hmode
  have hcanonical := resolve_of_destination? wf hdestination hreached
  obtain rfl : parent ++ [name] = goal :=
    Except.ok.inj ((resolve_canonical hgoal).symm.trans hcanonical)
  exact lastStep_temporary wf hdestination hchosen hreached hfile hlast

/-- A place beside the file that is not taken is room enough for a replacement. -/
lemma free_of_entry?_eq_none {world : World} (wf : world.fs.WellFormed)
    (hgoal : world.fs.resolve .toFile path = .ok (parent ++ [name]))
    (hfile : world.fs.shape? (parent ++ [name]) = some .file)
    (hfree : world.fs.entry? (parent ++ [temporaryName world.session.stamp.1 name]) = none) :
    Free world path := by
  intro temporary htemporary parent' mode entries n asDirectory hlast
  obtain ⟨rfl, rfl⟩ := lastStep_of_temporary? wf htemporary hgoal hfile hlast
  obtain ⟨-, -, -, -, hparent, -⟩ := lastStep_eq_entry_iff.mp hlast
  rwa [entry?_concat hparent] at hfree

/-! ## Limits -/

/-- No zero byte is in a temporary path, if none is in the path beside it.

**Proof sketch.** What is in the temporary path is a slash, in a piece of the path beside it, or in
the temporary name; and there it is in the name of the file or in what is put around it. -/
lemma zero_notMem_temporary (hsplit : destination.splitName? = some (split, name))
    (hchosen : temporaryPath? stamp destination = some temporary) (hzero : 0 ∉ destination) :
    0 ∉ temporary := by
  obtain ⟨between, behind, hpieces, -⟩ := splitName?_spec hsplit
  have hpiece : ∀ piece ∈ pieces destination, 0 ∉ piece := by
    intro piece hpiece hmem
    rw [← ofPieces_pieces destination] at hzero
    exact hzero (mem_ofPieces hpiece hmem)
  obtain rfl : ofPieces (split ++ [temporaryName stamp name]) = temporary :=
    Option.some.inj ((temporaryPath?_of_splitName? stamp hsplit).symm.trans hchosen)
  intro hmem
  rcases eq_slash_or_mem_of_mem_ofPieces hmem with h | ⟨piece, hmem', hb⟩
  · exact absurd h (by decide)
  · rcases List.mem_append.mp hmem' with h | h
    · exact hpiece piece (by simp [hpieces, h]) hb
    · rw [List.mem_singleton.mp h] at hb
      exact notMem_temporaryName stamp (by decide) (by decide) (by decide) (by decide)
        (hpiece name (by simp [hpieces])) hb

/-- **The temporary path ends in the directory of the file,** whatever stands there, unless it has become
too long to be looked up.

**Proof sketch.** The temporary path is walked like the path of the file, up to the last step. If it
is too long it is refused at once; if only its name is, the directory is reached and the name is
refused there. -/
lemma lastStep_temporary_eq (hsplit : destination.splitName? = some (split, name))
    (hchosen : temporaryPath? stamp destination = some temporary)
    (hlast : fs.lastStep destination = .ok (.entry parent mode entries name false)) :
    fs.lastStep temporary =
      if maxPath < temporary.length ∨ maxName < (temporaryName stamp name).length then
        .error .nameTooLong
      else .ok (.entry parent mode entries (temporaryName stamp name) false) := by
  obtain ⟨-, -, -, -, -, hname, -⟩ := splitName?_spec hsplit
  have hstep : IsStep (temporaryName stamp name) := isStep_temporaryName stamp hname.2.2.2
  have hsteps := (steps_sibling hsplit hchosen hstep).1
  obtain ⟨left, hwalked⟩ := exists_walked_sibling hsplit hchosen hstep hlast
  obtain ⟨hspelling, -, -, -, hparent, hsearch, -⟩ := lastStep_eq_entry_iff.mp hlast
  have hzero : 0 ∉ temporary :=
    zero_notMem_temporary hsplit hchosen (zero_notMem_of_spellingError? hspelling)
  have hne : temporary ≠ [] := ne_nil_of_steps (by simp [hsteps])
  by_cases hlength : maxPath < temporary.length
  · rw [if_pos (.inl hlength)]
    simp [lastStep, spellingError?, hzero, hne, hlength]
  · have hspelling' := spellingError?_eq_none hzero hne (Nat.not_lt.mp hlength)
    by_cases hlong : maxName < (temporaryName stamp name).length
    · have hwalk : walkFrom fs .toFile maxLinks (startOf temporary fs.workingDirectory)
          (split.filterMap step?) = .ok parent := (walkFrom_eq_ok_iff rfl).mpr ⟨left, hwalked⟩
      rw [if_pos (.inr hlong)]
      simp [lastStep, hspelling', hsteps, hwalk, hparent, hsearch, hlong]
    · rw [if_neg (not_or.mpr ⟨hlength, hlong⟩)]
      exact lastStep_eq_entry_iff.mpr
        ⟨hspelling', _, hsteps, ⟨left, hwalked⟩, hparent, hsearch, Nat.not_lt.mp hlong⟩

/-- What is too long then does not fit. -/
lemma lastStep_temporary_or (hsplit : destination.splitName? = some (split, name))
    (hchosen : temporaryPath? stamp destination = some temporary)
    (hlast : fs.lastStep destination = .ok (.entry parent mode entries name false)) :
    fs.lastStep temporary = .ok (.entry parent mode entries (temporaryName stamp name) false) ∨
      (¬ Fits temporary ∧ fs.lastStep temporary = .error .nameTooLong) := by
  obtain ⟨-, -, -, -, -, hname, -⟩ := splitName?_spec hsplit
  have hsteps := (steps_sibling hsplit hchosen (isStep_temporaryName stamp hname.2.2.2)).1
  have heq := lastStep_temporary_eq hsplit hchosen hlast
  by_cases hlong : maxPath < temporary.length ∨ maxName < (temporaryName stamp name).length
  · refine .inr ⟨fun hfits => ?_, heq.trans (if_pos hlong)⟩
    have hshort : (temporaryName stamp name).length ≤ maxName :=
      hfits.2 (.name _) (by simp [hsteps])
    exact hlong.elim (Nat.not_lt.mpr hfits.1) (Nat.not_lt.mpr hshort)
  · exact .inl (heq.trans (if_neg hlong))

/-- So a temporary path that fits ends in the directory of the file. -/
lemma lastStep_temporary_of_fits (hsplit : destination.splitName? = some (split, name))
    (hchosen : temporaryPath? stamp destination = some temporary)
    (hlast : fs.lastStep destination = .ok (.entry parent mode entries name false))
    (hfits : Fits temporary) :
    fs.lastStep temporary = .ok (.entry parent mode entries (temporaryName stamp name) false) :=
  (lastStep_temporary_or hsplit hchosen hlast).resolve_right fun h => h.1 hfits

end Detab.Replacement
