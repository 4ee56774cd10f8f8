import Detab.FileSystem.Survey
import Detab.Proofs.FileSystem.Walking

set_option relaxedAutoImplicit false
set_option autoImplicit false

/-!
# What a walk sees of a tree

A walk asks of a place whether a file, a link or a directory is there, where the link leads, and
whether the directory may be passed through. Nothing else decides where the walk ends, or why it comes
to no good end: neither the files, nor the other permissions, nor the order of entries.

## Main definitions

* `Detab.Sight`, `Detab.FileSystem.sight?` — what a walk sees of a place.

## Main results

* `Detab.FileSystem.resolve_congr` — **where a path leads, or why it leads nowhere,** is the same in two
  trees in which a walk sees the same.
* `Detab.FileSystem.isDirectory_congr` — and so is whether it leads to a directory.
-/

namespace Detab

open Detab.Path

/-- **What a walk sees of a place.** -/
inductive Sight where
  | file
  | link (target : Path)
  | directory (passable : Bool)
  deriving DecidableEq, Repr

/-- What a walk sees of an entry. -/
def Entry.sight : Entry → Sight
  | .leaf (.file _) => .file
  | .leaf (.link target) => .link target
  | .directory mode _ => .directory mode.canSearch

namespace FileSystem

variable {fs fs' : FileSystem} {walk : Walk} {path : Path} {place : Place}

/-- What a walk sees of a place, if anything is there. -/
def sight? (fs : FileSystem) (place : Place) : Option Sight :=
  (fs.entry? place).map Entry.sight

/-- Where a walk sees the same, there is nothing, a leaf or a directory in both trees. -/
lemma entry?_of_sight? (h : fs'.sight? place = fs.sight? place) :
    (fs.entry? place = none ∧ fs'.entry? place = none) ∨
      (∃ l l', fs.entry? place = some (.leaf l) ∧ fs'.entry? place = some (.leaf l')) ∨
      ∃ mode mode' entries entries', fs.entry? place = some (.directory mode entries) ∧
        fs'.entry? place = some (.directory mode' entries') ∧ mode'.canSearch = mode.canSearch := by
  unfold sight? at h
  generalize fs.entry? place = entry at h ⊢
  generalize fs'.entry? place = entry' at h ⊢
  rcases entry with _ | (_ | _) | _ <;> rcases entry' with _ | (_ | _) | _ <;>
    simp_all [Entry.sight]

section Congruence

variable (hsight : ∀ place, fs'.sight? place = fs.sight? place)
include hsight

/-- Steps lead the same way in two trees that look the same, if walks go on alike behind links. This
is the induction over the steps; the one over the links is `walkFrom_congr`.

**Proof sketch.** Induction on the steps. Each one asks what is here, which looks the same in both
trees: nothing, a leaf, or a directory with the same permission to be passed through; a name also
asks what it stands for. -/
lemma takeSteps_congr {jump jump' : Place → List Step → Except IoError Place}
    (hjump : ∀ here steps, jump' here steps = jump here steps) (here : Place) (steps : List Step) :
    takeSteps fs' walk jump' here steps = takeSteps fs walk jump here steps := by
  induction steps generalizing here with
  | nil => rfl
  | cons step rest ih =>
    rw [takeSteps, takeSteps]
    obtain ⟨hnone, hnone'⟩ | ⟨l, l', hleaf, hleaf'⟩ | ⟨mode, mode', entries, entries', hentry, hentry',
      hsearch⟩ := entry?_of_sight? (hsight here)
    · rw [hnone, hnone']
    · rw [hleaf, hleaf']
    · rw [hentry, hentry']
      cases step with
      | stay => simp only [hsearch, ih]
      | up => simp only [hsearch, ih]
      | directory => exact ih here
      | name n =>
        have hname := hsight (here ++ [n])
        unfold sight? at hname
        rw [entry?_concat hentry, entry?_concat hentry'] at hname
        simp only [hsearch, ih]
        generalize entries.find? n = entry at hname ⊢
        generalize entries'.find? n = entry' at hname ⊢
        rcases entry with _ | (id | target) | ⟨m, e⟩ <;>
          rcases entry' with _ | (id' | target') | ⟨m', e'⟩ <;>
          simp_all [Entry.sight]

/-- A walk leads the same way in two trees that look the same, however many links may be followed.
-/
lemma walkFrom_congr (links : Nat) (here : Place) (steps : List Step) :
    walkFrom fs' walk links here steps = walkFrom fs walk links here steps := by
  induction links generalizing here steps with
  | zero => exact takeSteps_congr hsight (fun _ _ => rfl) here steps
  | succ links ih => exact takeSteps_congr hsight ih here steps

/-- **Where a path leads, or why it leads nowhere,** is decided by what a walk sees. -/
lemma resolve_congr (hstart : fs'.workingDirectory = fs.workingDirectory) (walk : Walk)
    (path : Path) : fs'.resolve walk path = fs.resolve walk path := by
  rw [resolve, resolve, hstart]
  cases spellingError? path with
  | some e => rfl
  | none => exact walkFrom_congr hsight maxLinks _ _

/-- Whether a path leads to a directory is decided by what a walk sees. -/
lemma isDirectory_congr (hstart : fs'.workingDirectory = fs.workingDirectory) (path : Path) :
    fs'.isDirectory path = fs.isDirectory path := by
  unfold isDirectory lookUp
  rw [resolve_congr hsight hstart]
  cases fs.resolve .toFile path with
  | error e => rfl
  | ok place =>
    obtain ⟨h, h'⟩ | ⟨_, _, h, h'⟩ | ⟨_, _, _, _, h, h', -⟩ := entry?_of_sight? (hsight place) <;>
      simp only [h, h']

end Congruence

end FileSystem

end Detab
