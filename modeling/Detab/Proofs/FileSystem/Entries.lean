import Detab.FileSystem.Snapshot
import Mathlib.Tactic.Common

set_option relaxedAutoImplicit false
set_option autoImplicit false

/-!
# Entries after a change

A change of a file system changes the entries of one directory. This file says what a name stands
for after each of the changes of a `Directory`, and what every place of the tree holds after one of
its directories has changed.

## Main definitions

* `Detab.Node` — what a place holds itself: a leaf, or a directory by its mode alone.
* `Detab.FileSystem.node?` — the node at a place.

## Main results

* `Detab.Directory.removeLeaf_addLeaf`, `Detab.Directory.replaceLeaf_addLeaf` — adding a leaf is
  undone by removing it, and does not meddle with other names.
* `Detab.FileSystem.node?_changeAt_name` — **one name at a time:** a change that concerns one name
  of a directory and leaves at most a leaf there changes no other place of the tree.
* `Detab.FileSystem.changeAt_changeAt`, `Detab.FileSystem.changeAt_congr` — two changes of one
  directory are one change.

## Design

The entry at a place contains everything below it, so it changes whenever anything below it does.
The *node* at a place does not: it is what the frame statements are about.
-/

namespace Detab

/-! ## Names of a directory after a change -/

namespace Directory

variable {n t : Name} {l new : Leaf}

/-- What is found after a leaf has been added at the end: what was found before, and otherwise the
new leaf under its name. -/
lemma find?_addLeaf (n t : Name) (l : Leaf) (d : Directory) :
    (d.addLeaf t l).find? n = (d.find? n).or (if t = n then some (.leaf l) else none) := by
  induction d with
  | empty => by_cases h : t = n <;> simp [addLeaf, find?, h]
  | leaf name l' rest ih => by_cases h : name = n <;> simp [addLeaf, find?, h, ih]
  | sub name mode entries rest _ ih => by_cases h : name = n <;> simp [addLeaf, find?, h, ih]

/-- A new name stands for the leaf that was added, if the name was free. -/
lemma find?_addLeaf_self {d : Directory} (h : d.find? t = none) :
    (d.addLeaf t l).find? t = some (.leaf l) := by
  simp [find?_addLeaf, h]

/-- Adding a leaf changes nothing for other names. -/
lemma find?_addLeaf_of_ne (hne : n ≠ t) (d : Directory) :
    (d.addLeaf t l).find? n = d.find? n := by
  simp [find?_addLeaf, Ne.symm hne]

/-- A name that stood for a leaf stands for the new leaf after the replacement. -/
lemma find?_replaceLeaf_self {d : Directory} {old : Leaf} (h : d.find? t = some (.leaf old)) :
    (d.replaceLeaf t new).find? t = some (.leaf new) := by
  induction d with
  | empty => simp [find?] at h
  | leaf name l' rest ih =>
    by_cases hn : name = t
    · simp [replaceLeaf, find?, hn]
    · simp only [find?, if_neg hn] at h
      simp [replaceLeaf, find?, hn, ih h]
  | sub name mode entries rest _ ih =>
    by_cases hn : name = t
    · simp [find?, hn] at h
    · simp only [find?, if_neg hn] at h
      simp [replaceLeaf, find?, hn, ih h]

/-- Replacing a leaf changes nothing for other names. -/
lemma find?_replaceLeaf_of_ne (hne : n ≠ t) (d : Directory) :
    (d.replaceLeaf t new).find? n = d.find? n := by
  induction d with
  | empty => rfl
  | leaf name l' rest ih =>
    by_cases ht : name = t
    · have hn : name ≠ n := fun h => hne (h.symm.trans ht)
      simp [replaceLeaf, find?, ht, show t ≠ n from Ne.symm hne]
    · simp only [replaceLeaf, if_neg ht, find?, ih]
  | sub name mode entries rest _ ih => simp only [replaceLeaf, find?, ih]

/-- A leaf that was added is removed without a trace. -/
lemma removeLeaf_addLeaf {d : Directory} (h : d.find? t = none) :
    (d.addLeaf t l).removeLeaf t = d := by
  induction d with
  | empty => simp [addLeaf, removeLeaf]
  | leaf name l' rest ih =>
    by_cases hn : name = t
    · simp [find?, hn] at h
    · simp only [find?, if_neg hn] at h
      simp [addLeaf, removeLeaf, hn, ih h]
  | sub name mode entries rest _ ih =>
    by_cases hn : name = t
    · simp [find?, hn] at h
    · simp only [find?, if_neg hn] at h
      simp [addLeaf, removeLeaf, ih h]

/-- Removing a leaf changes nothing for other names. -/
lemma find?_removeLeaf_of_ne (hne : n ≠ t) (d : Directory) :
    (d.removeLeaf t).find? n = d.find? n := by
  induction d with
  | empty => rfl
  | leaf name l' rest ih =>
    by_cases ht : name = t
    · simp [removeLeaf, find?, ht, Ne.symm hne]
    · simp only [removeLeaf, if_neg ht, find?, ih]
  | sub name mode entries rest _ ih => simp only [removeLeaf, find?, ih]

/-- Replacing the leaf of a name passes over a leaf that was added under another name. -/
lemma replaceLeaf_addLeaf (hne : n ≠ t) (d : Directory) :
    (d.addLeaf t l).replaceLeaf n new = (d.replaceLeaf n new).addLeaf t l := by
  induction d with
  | empty => simp [addLeaf, replaceLeaf, Ne.symm hne]
  | leaf name l' rest ih => by_cases hn : name = n <;> simp [addLeaf, replaceLeaf, hn, ih]
  | sub name mode entries rest _ ih => simp only [addLeaf, replaceLeaf, ih]

/-- What a name stands for after its subdirectory has changed. -/
lemma find?_changeSub_self (t : Name) (change : Mode → Directory → Mode × Directory)
    (d : Directory) :
    (d.changeSub t change).find? t =
      (d.find? t).map fun
        | .leaf l => .leaf l
        | .directory mode entries =>
          .directory (change mode entries).1 (change mode entries).2 := by
  induction d with
  | empty => rfl
  | leaf name l' rest ih => by_cases ht : name = t <;> simp [changeSub, find?, ht, ih]
  | sub name mode entries rest _ ih => by_cases ht : name = t <;> simp [changeSub, find?, ht, ih]

/-- Changing a directory below a name changes nothing for other names. -/
lemma find?_changeSub_of_ne (hne : n ≠ t) (change : Mode → Directory → Mode × Directory)
    (d : Directory) : (d.changeSub t change).find? n = d.find? n := by
  induction d with
  | empty => rfl
  | leaf name l' rest ih => simp only [changeSub, find?, ih]
  | sub name mode entries rest _ ih =>
    by_cases ht : name = t
    · simp [changeSub, find?, ht, show t ≠ n from Ne.symm hne]
    · simp only [changeSub, if_neg ht, find?, ih]

/-- Two changes of one subdirectory are one change. -/
lemma changeSub_changeSub (n : Name) (c₁ c₂ : Mode → Directory → Mode × Directory)
    (d : Directory) :
    (d.changeSub n c₁).changeSub n c₂ =
      d.changeSub n fun mode entries => c₂ (c₁ mode entries).1 (c₁ mode entries).2 := by
  induction d with
  | empty => rfl
  | leaf name l' rest ih => simp only [changeSub, ih]
  | sub name mode entries rest _ ih =>
    by_cases hn : name = n <;> simp [changeSub, hn, ih]

/-- Changes that do the same to the subdirectory that is there are the same change. -/
lemma changeSub_congr {c₁ c₂ : Mode → Directory → Mode × Directory} {d : Directory}
    {mode : Mode} {entries : Directory} (hfind : d.find? n = some (.directory mode entries))
    (h : c₁ mode entries = c₂ mode entries) : d.changeSub n c₁ = d.changeSub n c₂ := by
  induction d with
  | empty => rfl
  | leaf name l' rest ih =>
    by_cases hn : name = n
    · simp [find?, hn] at hfind
    · simp only [find?, if_neg hn] at hfind
      simp only [changeSub, ih hfind]
  | sub name m e rest _ ih =>
    by_cases hn : name = n
    · simp only [find?, if_pos hn, Option.some.injEq, Entry.directory.injEq] at hfind
      obtain ⟨rfl, rfl⟩ := hfind
      simp [changeSub, hn, h]
    · simp only [find?, if_neg hn] at hfind
      simp only [changeSub, if_neg hn, ih hfind]

/-- A change that keeps the subdirectory that is there keeps the directory. -/
lemma changeSub_eq_self (n : Name) (d : Directory) :
    d.changeSub n (fun mode entries => (mode, entries)) = d := by
  induction d with
  | empty => rfl
  | leaf name l' rest ih => simp only [changeSub, ih]
  | sub name m e rest _ ih => by_cases hn : name = n <;> simp [changeSub, hn, ih]

end Directory

/-! ## Nodes -/

/-- **What a place holds itself:** a leaf, or a directory by its mode alone. -/
inductive Node where
  | leaf (leaf : Leaf)
  | directory (mode : Mode)
  deriving DecidableEq, Repr

namespace Entry

/-- What an entry is itself, whatever is below it. -/
def node : Entry → Node
  | .leaf l => .leaf l
  | .directory mode _ => .directory mode

/-- Following names in two stretches: the second one goes on from where the first one has led. -/
lemma follow?_append (p q : Place) (e : Entry) :
    e.follow? (p ++ q) = (e.follow? p).bind (Entry.follow? q) := by
  induction p generalizing e with
  | nil => rfl
  | cons n p ih =>
    cases e with
    | leaf l => rfl
    | directory mode entries =>
      simp only [List.cons_append, follow?]
      cases entries.find? n with
      | none => rfl
      | some e' => simpa using ih e'

variable {change : Mode → Directory → Mode × Directory}

/-- At and below the place of a change stands what the change has made.

**Proof sketch.** Induction on the names that lead to the place, each of which finds a directory. -/
lemma follow?_changeBelow {p : Place} {mode m : Mode} {entries e : Directory}
    (h : Entry.follow? p (.directory mode entries) = some (.directory m e)) (q : Place) :
    Entry.follow? (p ++ q) (.directory (changeBelow change p mode entries).1
        (changeBelow change p mode entries).2) =
      Entry.follow? q (.directory (change m e).1 (change m e).2) := by
  induction p generalizing mode entries with
  | nil =>
    simp only [follow?, Option.some.injEq, Entry.directory.injEq] at h
    obtain ⟨rfl, rfl⟩ := h
    rfl
  | cons n p ih =>
    simp only [follow?] at h
    cases hfind : entries.find? n with
    | none => simp [hfind] at h
    | some e' =>
      cases e' with
      | leaf l =>
        cases p <;> simp [hfind, follow?] at h
      | directory m' e' =>
        rw [hfind] at h
        simpa [changeBelow, follow?, Directory.find?_changeSub_self, hfind] using ih h

/-- Beside the place of a change, and above it, every place keeps its node.

**Proof sketch.** Induction on the names of the place of the change. The other place goes another
way at the first name at which the two differ, or ends before; a directory that is passed by keeps
its mode, so its node is the same. -/
lemma node_follow?_changeBelow {p q : Place} (hpq : ¬ p <+: q) (mode : Mode)
    (entries : Directory) :
    (Entry.follow? q (.directory (changeBelow change p mode entries).1
        (changeBelow change p mode entries).2)).map node =
      (Entry.follow? q (.directory mode entries)).map node := by
  induction p generalizing q mode entries with
  | nil => exact absurd List.nil_prefix hpq
  | cons n p ih =>
    cases q with
    | nil => rfl
    | cons n' q =>
      by_cases hn : n' = n
      · subst hn
        have hpq' : ¬ p <+: q := fun h => hpq ((List.prefix_cons_inj n').mpr h)
        simp only [changeBelow, follow?, Directory.find?_changeSub_self]
        cases entries.find? n' with
        | none => rfl
        | some e =>
          cases e with
          | leaf l => rfl
          | directory m e => exact ih hpq' m e
      · simp only [changeBelow, follow?, Directory.find?_changeSub_of_ne hn]

/-- Two changes that agree on what the names lead to change the whole directory alike.

**Proof sketch.** Induction on the names that lead to the place, each of which finds a directory. -/
lemma changeBelow_congr {c₁ c₂ : Mode → Directory → Mode × Directory} {p : Place}
    {mode m : Mode} {entries e : Directory}
    (hp : Entry.follow? p (.directory mode entries) = some (.directory m e))
    (h : c₁ m e = c₂ m e) :
    changeBelow c₁ p mode entries = changeBelow c₂ p mode entries := by
  induction p generalizing mode entries with
  | nil =>
    simp only [follow?, Option.some.injEq, Entry.directory.injEq] at hp
    obtain ⟨rfl, rfl⟩ := hp
    exact h
  | cons n p ih =>
    simp only [follow?] at hp
    cases hfind : entries.find? n with
    | none => simp [hfind] at hp
    | some e' =>
      cases e' with
      | leaf l =>
        cases p <;> simp [hfind, follow?] at hp
      | directory m' e' =>
        rw [hfind] at hp
        simp only [changeBelow, Directory.changeSub_congr hfind (ih hp)]

/-- Two changes at one place, one after the other, are one change at this place. -/
lemma changeBelow_changeBelow (c₁ c₂ : Mode → Directory → Mode × Directory) (p : Place)
    (mode : Mode) (entries : Directory) :
    changeBelow c₂ p (changeBelow c₁ p mode entries).1 (changeBelow c₁ p mode entries).2 =
      changeBelow (fun m e => c₂ (c₁ m e).1 (c₁ m e).2) p mode entries := by
  induction p generalizing mode entries with
  | nil => rfl
  | cons n p ih =>
    simp only [changeBelow, Directory.changeSub_changeSub]
    congr 2
    funext m e
    exact ih m e

/-- A change that changes nothing at one place leaves the whole directory as it was. -/
lemma changeBelow_eq_self (p : Place) (mode : Mode) (entries : Directory) :
    changeBelow (fun m e => (m, e)) p mode entries = (mode, entries) := by
  induction p generalizing mode entries with
  | nil => rfl
  | cons n p ih =>
    have hid : changeBelow (fun m e => (m, e)) p = fun m e => (m, e) := by
      funext m e
      exact ih m e
    rw [changeBelow, hid, Directory.changeSub_eq_self]

end Entry

/-! ## File systems -/

/-- What a node holds, in a table of files. -/
def Node.item? (files : List File) : Node → Option Item
  | .leaf l => FileSystem.itemOfLeaf? files l
  | .directory mode => some (.directory mode)

namespace FileSystem

variable {fs : FileSystem} {parent place : Place} {name : Name} {mode : Mode}
  {entries : Directory}

/-- **The node at a place.** -/
def node? (fs : FileSystem) (place : Place) : Option Node :=
  (fs.entry? place).map Entry.node

/-- What a place holds is decided by its node, and by the file that the node names. -/
lemma item?_eq_bind_node? (fs : FileSystem) (place : Place) :
    fs.item? place = (fs.node? place).bind (Node.item? fs.files) := by
  unfold item? node?
  cases fs.entry? place with
  | none => rfl
  | some e => cases e <;> rfl

/-- A place is a leaf exactly when its entry is this leaf. -/
lemma node?_eq_leaf_iff {l : Leaf} :
    fs.node? place = some (.leaf l) ↔ fs.entry? place = some (.leaf l) := by
  unfold node?
  cases fs.entry? place with
  | none => simp
  | some e => cases e <;> simp [Entry.node]

/-- A place is a directory exactly when its entry is one with the same mode. -/
lemma node?_eq_directory_iff :
    fs.node? place = some (.directory mode) ↔
      ∃ entries, fs.entry? place = some (.directory mode entries) := by
  unfold node?
  cases fs.entry? place with
  | none => simp
  | some e => cases e <;> simp [Entry.node]

/-- A place is nothing exactly when it has no entry. -/
lemma node?_eq_none_iff : fs.node? place = none ↔ fs.entry? place = none := by
  simp [node?]

/-- The entry of the root: it is a directory, whichever file system it is. -/
@[simp]
lemma entry?_nil (fs : FileSystem) :
    fs.entry? [] = some (.directory fs.rootMode fs.root) := rfl

/-- The entry of a place in two stretches: the second one goes on from the entry of the first one.
-/
lemma entry?_append (fs : FileSystem) (p q : Place) :
    fs.entry? (p ++ q) = (fs.entry? p).bind (Entry.follow? q) :=
  Entry.follow?_append p q _

/-- A name in a directory stands for what its place holds. -/
lemma entry?_concat (h : fs.entry? parent = some (.directory mode entries)) (name : Name) :
    fs.entry? (parent ++ [name]) = entries.find? name := by
  rw [entry?_append, h]
  cases hfind : entries.find? name <;> simp [Entry.follow?, hfind]

/-- A leaf at a place is the leaf of its name. -/
lemma find?_of_node? {l : Leaf} (h : fs.entry? parent = some (.directory mode entries))
    (hnode : fs.node? (parent ++ [name]) = some (.leaf l)) : entries.find? name = some (.leaf l) := by
  rw [← entry?_concat h, node?_eq_leaf_iff.mp hnode]

/-- What is above something is a directory. -/
lemma exists_directory_of_entry?_concat {e : Entry} (h : fs.entry? (parent ++ [name]) = some e) :
    ∃ mode entries, fs.entry? parent = some (.directory mode entries) := by
  rw [entry?_append] at h
  cases hp : fs.entry? parent with
  | none => simp [hp] at h
  | some p =>
    cases p with
    | leaf l => simp [hp, Entry.follow?] at h
    | directory mode entries => exact ⟨mode, entries, rfl⟩

/-- Nothing is below a leaf. -/
lemma entry?_append_of_leaf {l : Leaf} (h : fs.entry? place = some (.leaf l)) (n : Name)
    (q : Place) : fs.entry? (place ++ n :: q) = none := by
  rw [entry?_append, h]
  rfl

variable {change change₁ change₂ : Directory → Directory}

/-- The table of files is not touched when the entries of a directory are changed. -/
@[simp]
lemma changeAt_files (fs : FileSystem) (parent : Place) (change : Directory → Directory) :
    (fs.changeAt parent change).files = fs.files := rfl

/-- At and below a changed directory stands what the change has made. -/
lemma entry?_changeAt (h : fs.entry? parent = some (.directory mode entries)) (q : Place) :
    entry? (fs.changeAt parent change) (parent ++ q) =
      Entry.follow? q (.directory mode (change entries)) :=
  Entry.follow?_changeBelow h q

/-- Beside a changed directory, and above it, every place keeps its node. -/
lemma node?_changeAt_beside (h : ¬ parent <+: place) :
    (fs.changeAt parent change).node? place = fs.node? place :=
  Entry.node_follow?_changeBelow h _ _

/-- Two changes of one directory are one change. -/
lemma changeAt_changeAt (fs : FileSystem) (parent : Place) (change₁ change₂ : Directory → Directory) :
    (fs.changeAt parent change₁).changeAt parent change₂ =
      fs.changeAt parent fun d => change₂ (change₁ d) := by
  simp only [changeAt, changeDirectory, Entry.changeBelow_changeBelow]

/-- What a change does to other directories than the one that is there does not count. -/
lemma changeAt_congr (h : fs.entry? parent = some (.directory mode entries))
    (hc : change₁ entries = change₂ entries) :
    fs.changeAt parent change₁ = fs.changeAt parent change₂ := by
  simp only [changeAt, changeDirectory]
  have hbelow : Entry.changeBelow (fun m e => (m, change₁ e)) parent fs.rootMode fs.root =
      Entry.changeBelow (fun m e => (m, change₂ e)) parent fs.rootMode fs.root :=
    Entry.changeBelow_congr h (by rw [hc])
  rw [hbelow]

/-- A change that changes nothing in a directory leaves the file system as it was. -/
lemma changeAt_eq_self (h : fs.entry? parent = some (.directory mode entries))
    (hc : change entries = entries) : fs.changeAt parent change = fs := by
  calc fs.changeAt parent change
      _ = fs.changeAt parent id := changeAt_congr h hc
      _ = fs := by simp only [changeAt, changeDirectory, id, Entry.changeBelow_eq_self]

/-- **One name at a time:** a change that concerns one name of a directory, where no directory is,
and leaves at most a leaf there changes no other place of the tree.

**Proof sketch.** A place that does not go on from the directory keeps its node, and so does the
directory itself. A place that goes on from it under another name is reached through an entry that
was kept. Under the name itself nothing is deeper than the leaf, before and after. -/
lemma node?_changeAt_name {new : Option Leaf}
    (hparent : fs.entry? parent = some (.directory mode entries))
    (hold : ∀ m e, entries.find? name ≠ some (.directory m e))
    (hnew : (change entries).find? name = new.map .leaf)
    (hother : ∀ n, n ≠ name → (change entries).find? n = entries.find? n) (place : Place) :
    (fs.changeAt parent change).node? place =
      if place = parent ++ [name] then new.map .leaf else fs.node? place := by
  by_cases hprefix : parent <+: place
  · obtain ⟨q, rfl⟩ := hprefix
    have hafter : entry? (fs.changeAt parent change) (parent ++ q) =
        Entry.follow? q (.directory mode (change entries)) := entry?_changeAt hparent q
    have hbefore : fs.entry? (parent ++ q) = Entry.follow? q (.directory mode entries) := by
      rw [entry?_append, hparent]
      rfl
    rw [node?, node?, hafter, hbefore]
    cases q with
    | nil => simp [Entry.follow?, Entry.node]
    | cons n q =>
      by_cases hn : n = name
      · subst hn
        simp only [Entry.follow?, hnew]
        cases q with
        | nil => cases new <;> simp [Entry.follow?, Entry.node]
        | cons n' q =>
          have hne : ¬ parent ++ n :: n' :: q = parent ++ [n] := by simp
          have hbelow : (new.map Entry.leaf).bind (Entry.follow? (n' :: q)) = none := by
            cases new <;> rfl
          rw [if_neg hne, hbelow]
          cases hfind : entries.find? n with
          | none => rfl
          | some e =>
            cases e with
            | leaf l' => rfl
            | directory m e => exact absurd hfind (hold m e)
      · have hne : ¬ parent ++ n :: q = parent ++ [name] := by simp [hn]
        rw [if_neg hne]
        simp only [Entry.follow?, hother n hn]
  · have hne : place ≠ parent ++ [name] := fun h => hprefix ⟨[name], h.symm⟩
    rw [node?_changeAt_beside hprefix, if_neg hne]

/-- A change that leaves a leaf under one name of a directory, where no directory is. -/
lemma node?_changeAt_leaf {l : Leaf} (hparent : fs.entry? parent = some (.directory mode entries))
    (hold : ∀ m e, entries.find? name ≠ some (.directory m e))
    (hnew : (change entries).find? name = some (.leaf l))
    (hother : ∀ n, n ≠ name → (change entries).find? n = entries.find? n) (place : Place) :
    (fs.changeAt parent change).node? place =
      if place = parent ++ [name] then some (.leaf l) else fs.node? place :=
  have hleaf : (change entries).find? name = (some l).map .leaf := hnew
  node?_changeAt_name hparent hold hleaf hother place

end FileSystem

end Detab
