import Detab.Proofs.Expansion.Lines

set_option relaxedAutoImplicit false
set_option autoImplicit false

/-!
# The bounds of the copying

The length of an expansion is computed and reserved before anything is copied. Then nothing is checked
any more: slices are cut at the positions of the tabs, and the buffer grows by the width at each of
them. This file shows that no check is missing. In every round the slice lies in the contents, the new
size is a 64-bit number, and what is reserved is not outgrown.

## Main definitions

* `Detab.Expansion.Cursor.InBounds` — one round of the copying in which nothing is out of bounds.
* `Detab.Expansion.WithinReserved` — **a whole copying in which nothing is.**

## Main results

* `Detab.Expansion.exists_of_positionsFrom_split` — the bytes in front of a tab, and behind it.
* `Detab.Expansion.Cursor.At.inBounds` — **one round is in bounds,** wherever the copying stands.
* `Detab.Expansion.withinReserved` — the whole copying is.
* `Detab.Expansion.bounds_of_expand` — **an expansion fails only where it says so.**

## Design

The rounds are counted through what they leave behind them: behind the bytes `done`, copied and
uncopied bytes add up to the expansion of `done`. What is reserved is the length of the expansion of
all bytes, and an expansion grows with every further byte.
-/

namespace Detab.Expansion

variable {canReserve : Nat → Bool} {contents buffer : ByteArray} {width : Width} {length : Nat}
  {done left : Bytes} {cursor : Cursor}

/-! ## One round -/

/-- **One round of the copying in which nothing is out of bounds:** the slice up to the tab at
`position` lies in the contents, and the buffer stays within `length`, before the slice is added to it,
with the slice, and with the spaces. -/
structure Cursor.InBounds (contents : ByteArray) (width : Width) (length : Nat) (cursor : Cursor)
    (position : Nat) : Prop where
  start_le : cursor.start ≤ position
  lt_size : position < contents.size
  before_le : cursor.expanded.size ≤ length
  /-- The new size is the sum of two 64-bit numbers, and one itself. -/
  sum_lt : (cursor.expanded ++ contents.extract cursor.start position).size + width.toNat < UInt64.size
  sum_le : (cursor.expanded ++ contents.extract cursor.start position).size + width.toNat ≤ length
  after_eq : (cursor.passTab contents width position).expanded.size =
    (cursor.expanded ++ contents.extract cursor.start position).size + width.toNat

namespace Cursor.At

/-- The copied bytes are no more than the expansion of those that were passed. -/
lemma size_le {w : Nat} (h : cursor.At w done) : cursor.expanded.size ≤ expandedLength w done := by
  rw [← length_substitute, ← h.copied, List.length_append, length_unpack]
  exact Nat.le_add_right _ _

/-- **One round is in bounds,** when the expansion of all bytes has a length that is a 64-bit number.

**Proof sketch.** The expansion of all bytes is as long as that of what is done, the spaces, and
that of what is left, by `expandedLength_append`. Each bound of the round is a comparison of these
three. -/
lemma inBounds (h : cursor.At width.toNat done) (hsplit : unpack contents = done ++ tab :: left)
    (hlarge : expandedLength width.toNat (unpack contents) < UInt64.size) :
    cursor.InBounds contents width (expandedLength width.toNat (unpack contents)) done.length := by
  have hsize : contents.size = done.length + (left.length + 1) := by
    rw [← length_unpack, hsplit, List.length_append, List.length_cons]
  have hlength : expandedLength width.toNat (unpack contents) =
      expandedLength width.toNat done + (width.toNat + expandedLength width.toNat left) := by
    rw [hsplit, expandedLength_append, ← length_substitute _ (tab :: left), substitute_cons_tab,
      List.length_append, List.length_replicate, length_substitute]
  have hslice : (cursor.expanded ++ contents.extract cursor.start done.length).size =
      expandedLength width.toNat done := by
    rw [← length_unpack, h.unpack_slice hsplit, length_substitute]
  have hbefore := h.size_le
  refine ⟨h.start_le, by omega, by omega, by omega, by omega, ?_⟩
  rw [Cursor.passTab, ← length_unpack, unpack_addRepeated, List.length_append, length_unpack,
    List.length_replicate]

end Cursor.At

/-! ## All rounds -/

/-- **The bytes in front of a tab, and behind it:** the positions up to that of the tab are those of the
bytes in front of it.

**Proof sketch.** Induction on the bytes. A tab is the position itself or one of those before it;
any other byte moves the positions behind it by one. -/
lemma exists_of_positionsFrom_split {bytes : Bytes} {i position : Nat} {before after : List Nat}
    (h : positionsFrom i bytes = before ++ position :: after) :
    ∃ done left, bytes = done ++ tab :: left ∧ position = i + done.length ∧
      before = positionsFrom i done := by
  induction bytes generalizing i before with
  | nil => simp [positionsFrom] at h
  | cons b rest ih =>
    by_cases hb : b = tab
    · subst hb
      simp only [positionsFrom, if_true] at h
      cases before with
      | nil =>
        obtain ⟨rfl, -⟩ := List.cons.inj h
        exact ⟨[], rest, rfl, rfl, rfl⟩
      | cons first before =>
        obtain ⟨rfl, hrest⟩ := List.cons.inj h
        obtain ⟨done, left, rfl, rfl, rfl⟩ := ih hrest
        refine ⟨tab :: done, left, rfl, ?_, by simp [positionsFrom]⟩
        rw [List.length_cons]
        omega
    · simp only [positionsFrom, if_neg hb] at h
      obtain ⟨done, left, rfl, rfl, rfl⟩ := ih h
      refine ⟨b :: done, left, rfl, ?_, by simp [positionsFrom, hb]⟩
      rw [List.length_cons]
      omega

/-- **A copying into an empty buffer that outgrows nothing,** when `length` bytes are reserved. -/
structure WithinReserved (contents : ByteArray) (width : Width) (length : Nat) (buffer : ByteArray) :
    Prop where
  /-- The tabs can be taken from the size, and the length is the one for what then is left. -/
  tabs_le : (tabPositions contents).length ≤ contents.size
  length_eq : length =
    (tabPositions contents).length * width.toNat + (contents.size - (tabPositions contents).length)
  rounds : ∀ before position after, tabPositions contents = before ++ position :: after →
    (before.foldl (Cursor.passTab contents width) ⟨0, buffer⟩).InBounds contents width length position
  last_start_le :
    ((tabPositions contents).foldl (Cursor.passTab contents width) ⟨0, buffer⟩).start ≤ contents.size
  last_size_le :
    ((tabPositions contents).foldl (Cursor.passTab contents width) ⟨0, buffer⟩).expanded.size ≤ length
  finish_size : (((tabPositions contents).foldl (Cursor.passTab contents width) ⟨0, buffer⟩).finish
    contents).size = length

/-- The whole copying is in bounds, once its length is computed.

**Proof sketch.** The cursor after any number of tabs has copied the substitution of the bytes up to
there, by the invariant `Cursor.At`. This bounds the slice that is copied next and the length so
far, and at the end it gives the whole length. -/
lemma withinReserved (hempty : unpack buffer = [])
    (hlength : length? contents.size (tabPositions contents).length width = some length) :
    WithinReserved contents width length buffer := by
  have htabs := length_tabPositions contents
  obtain ⟨hlarge, rfl⟩ : expandedLength width.toNat (unpack contents) < UInt64.size ∧
      expandedLength width.toNat (unpack contents) = length := by
    rw [htabs, length?_eq] at hlength
    split_ifs at hlength with hlarge
    exact ⟨Nat.not_le.mp hlarge, Option.some.inj hlength⟩
  have hlast : ((tabPositions contents).foldl (Cursor.passTab contents width) ⟨0, buffer⟩).At
      width.toNat (unpack contents) := by
    rw [tabPositions_eq]
    exact Cursor.At.foldl hempty (List.append_nil _).symm
  refine ⟨?_, ?_, ?_, ?_, hlast.size_le, ?_⟩
  · rw [htabs, ← length_unpack]
    exact List.count_le_length
  · rw [htabs, ← length_unpack, expandedLength]
  · intro before position after hsplit
    rw [tabPositions_eq] at hsplit
    obtain ⟨done, left, hbytes, rfl, rfl⟩ := exists_of_positionsFrom_split hsplit
    rw [Nat.zero_add]
    exact (Cursor.At.foldl hempty hbytes).inBounds hbytes hlarge
  · rw [← length_unpack]
    exact hlast.start_le
  · rw [← length_unpack, hlast.unpack_finish, length_substitute]

/-- **An expansion fails only where it says so.**

* Once the length of the result is computed and a buffer of that length is reserved, the copying is in
  bounds in every round, fills what is reserved exactly, and its result is that of the expansion; only
  contents without a tab are left alone.
* So the expansion of contents with a tab fails exactly when the length cannot be computed or reserved,
  with the error that says which.

**Proof sketch.** The bounds are `withinReserved`. The rest follows the tests of the expansion in
order: is there a tab, can the length be computed, can it be reserved. -/
theorem bounds_of_expand (canReserve : Nat → Bool) (contents : ByteArray) (width : Width) :
    (∀ length buffer, length? contents.size (tabPositions contents).length width = some length →
      reserve canReserve length = .ok buffer →
      WithinReserved contents width length buffer ∧
      expand canReserve contents width = .ok (if tabPositions contents = [] then none else
        some (((tabPositions contents).foldl (Cursor.passTab contents width) ⟨0, buffer⟩).finish
          contents))) ∧
    ∀ e, expand canReserve contents width = .error e ↔ tabPositions contents ≠ [] ∧
      (length? contents.size (tabPositions contents).length width = none ∧
          e = .tooLarge (tabPositions contents).length width ∨
        ∃ length cause, length? contents.size (tabPositions contents).length width = some length ∧
          reserve canReserve length = .error cause ∧ e = .reservation length cause) := by
  refine ⟨fun length buffer hlength hreserve => ⟨?_, ?_⟩, fun e => ?_⟩
  · exact withinReserved (unpack_of_reserve hreserve) hlength
  · rw [expand]
    split
    · rename_i hnil
      rw [if_pos hnil]
    · rename_i htabs
      dsimp only
      rw [if_neg htabs, hlength]
      dsimp only
      rw [hreserve]
  · rw [expand]
    split
    · rename_i hnil
      simp [hnil]
    · rename_i htabs
      dsimp only
      cases hlength : length? contents.size (tabPositions contents).length width with
      | none =>
        constructor
        · intro h
          exact ⟨htabs, .inl ⟨rfl, (Except.error.inj h).symm⟩⟩
        · rintro ⟨-, ⟨-, rfl⟩ | ⟨_, _, hsome, -⟩⟩
          · rfl
          · cases hsome
      | some length =>
        dsimp only
        constructor
        · intro h
          cases hreserve : reserve canReserve length with
          | error cause =>
            rw [hreserve] at h
            exact ⟨htabs, .inr ⟨length, cause, rfl, hreserve, (Except.error.inj h).symm⟩⟩
          | ok buffer =>
            rw [hreserve] at h
            cases h
        · rintro ⟨-, ⟨hnone, -⟩ | ⟨_, cause, hsome, hreserve, rfl⟩⟩
          · cases hnone
          · obtain rfl := Option.some.inj hsome
            rw [hreserve]

/-- The round in front of the second tab, when five bytes are reserved for two tabs around one letter. -/
theorem bounds_of_expand_second :
    (Cursor.passTab (pack [tab, 0x61, tab]) 2 ⟨0, .emptyWithCapacity 5⟩ 0).InBounds
      (pack [tab, 0x61, tab]) 2 5 2 := by
  obtain ⟨hwithin, -⟩ := (bounds_of_expand (fun _ => true) (pack [tab, 0x61, tab]) 2).1 5
    (.emptyWithCapacity 5) (by decide) rfl
  exact hwithin.rounds [0] 2 [] (by decide)

end Detab.Expansion
