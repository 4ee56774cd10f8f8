import Detab.Proofs.Expansion.Copying
import Mathlib.Algebra.GroupWithZero.Nat

set_option relaxedAutoImplicit false
set_option autoImplicit false

/-!
# The outcome of an expansion

Contents without a tab are left alone. For all others the length of the result decides: it has to be
a 64-bit number, then one that a buffer can have, and then one that the machine has memory for. This
file counts with unbounded numbers and says for every length which of these it comes to.

## Main definitions

* `Detab.Expansion.expandedLength` — the length of the expansion of a byte string.

## Main results

* `Detab.Expansion.length_substitute` — that this is its length.
* `Detab.Expansion.length?_eq` — when the length is refused, whether in its product or in its sum.
* `Detab.Expansion.outcome_of_expand` — **the outcome of an expansion,** for all contents and widths.
-/

namespace Detab.Expansion

variable {canReserve : Nat → Bool} {contents : ByteArray} {width : Width}

/-- **The length of the expansion of a byte string:** every tab counts as the width, every other byte
as one. -/
def expandedLength (width : Nat) (bytes : Bytes) : Nat :=
  bytes.count tab * width + (bytes.length - bytes.count tab)

/-- The substitution has the length that is computed beforehand. -/
lemma length_substitute (width : Nat) (bytes : Bytes) :
    (substitute width bytes).length = expandedLength width bytes := by
  induction bytes with
  | nil => simp [expandedLength]
  | cons b rest ih =>
    have hle : rest.count tab ≤ rest.length := List.count_le_length
    by_cases hb : b = tab
    · subst hb
      rw [substitute_cons_tab, List.length_append, List.length_replicate, ih]
      simp only [expandedLength, List.count_cons_self, List.length_cons, Nat.succ_mul]
      omega
    · rw [substitute_cons_of_ne width hb, List.length_cons, ih]
      simp only [expandedLength, List.count_cons_of_ne hb, List.length_cons]
      omega

/-- There are as many positions as tabs. -/
lemma length_positionsFrom (i : Nat) (bytes : Bytes) :
    (positionsFrom i bytes).length = bytes.count tab := by
  induction bytes generalizing i with
  | nil => rfl
  | cons b rest ih => by_cases hb : b = tab <;> simp [positionsFrom, hb, ih]

/-- There are as many positions of tabs as there are tabs. -/
lemma length_tabPositions (contents : ByteArray) :
    (tabPositions contents).length = (unpack contents).count tab := by
  rw [tabPositions_eq, length_positionsFrom]

/-- **A length is refused exactly when it has no 64-bit value.** A product that has none makes the sum
too large as well, so the two checks come to one. -/
lemma length?_eq (contents : ByteArray) (width : Width) :
    length? contents.size ((unpack contents).count tab) width =
      if 2 ^ 64 ≤ expandedLength width.toNat (unpack contents) then none
      else some (expandedLength width.toNat (unpack contents)) := by
  have hsize : UInt64.size = 2 ^ 64 := rfl
  unfold length? expandedLength
  rw [length_unpack, hsize]
  dsimp only
  split_ifs <;> first | rfl | omega

/-- **The expansion of contents with a tab** is their substitution, once a buffer is reserved.

**Proof sketch.** There is a tab, so the list of positions is not empty and the tests follow. When a
buffer is reserved, what is copied into it is the substitution, by the invariant of the cursor. -/
lemma expand_eq_of_mem (htab : tab ∈ unpack contents) :
    expand canReserve contents width =
      match length? contents.size ((unpack contents).count tab) width with
      | none => .error (.tooLarge ((unpack contents).count tab) width)
      | some length =>
        match reserve canReserve length with
        | .error cause => .error (.reservation length cause)
        | .ok _ => .ok (some (pack (substitute width.toNat (unpack contents)))) := by
  have hpositions : tabPositions contents ≠ [] := by
    rw [tabPositions_eq]
    exact mt (positionsFrom_eq_nil_iff 0 _).mp (not_not_intro htab)
  rw [expand]
  split
  · rename_i hnil
    exact absurd hnil hpositions
  · rw [length_tabPositions]
    dsimp only
    cases length? contents.size ((unpack contents).count tab) width with
    | none => rfl
    | some length =>
      dsimp only
      cases hreserved : reserve canReserve length with
      | error cause => rfl
      | ok buffer =>
        dsimp only
        rw [← unpack_copied contents width (unpack_of_reserve hreserved), pack_unpack]

/-- **The outcome of an expansion.** Contents without a tab are left alone, whatever the width. For
all others let the length be counted without any limit: from `2 ^ 64` on it is too large; from
`2 ^ 63` on no buffer can have it; below that the machine decides. When it has the memory, the result
is the substitution byte by byte, of that very length.

**Proof sketch.** By `expand_eq_of_mem`, with the length counted without a limit: from `2 ^ 64` on
it is not computed, from `2 ^ 63` on it is over the capacity, and below that the machine is asked.
-/
theorem outcome_of_expand (canReserve : Nat → Bool) (contents : ByteArray) (width : Width) :
    (expand canReserve contents width = .ok none ↔ (unpack contents).count tab = 0) ∧
    ((unpack contents).count tab ≠ 0 →
      expand canReserve contents width =
        if 2 ^ 64 ≤ expandedLength width.toNat (unpack contents) then
          .error (.tooLarge ((unpack contents).count tab) width)
        else if 2 ^ 63 ≤ expandedLength width.toNat (unpack contents) then
          .error (.reservation (expandedLength width.toNat (unpack contents)) .capacityExceeded)
        else if canReserve (expandedLength width.toNat (unpack contents)) then
          .ok (some (pack (substitute width.toNat (unpack contents))))
        else
          .error (.reservation (expandedLength width.toNat (unpack contents)) .outOfMemory)) ∧
    (substitute width.toNat (unpack contents)).length =
      expandedLength width.toNat (unpack contents) := by
  refine ⟨?_, fun htab => ?_, length_substitute _ _⟩
  · rw [expand_eq_none_iff, List.count_eq_zero]
  · have hmax : maxCapacity = 2 ^ 63 - 1 := rfl
    have hmem : tab ∈ unpack contents := by
      by_contra hnot
      exact htab (List.count_eq_zero.mpr hnot)
    rw [expand_eq_of_mem hmem, length?_eq]
    set length := expandedLength width.toNat (unpack contents)
    by_cases hlarge : 2 ^ 64 ≤ length
    · rw [if_pos hlarge, if_pos hlarge]
    · rw [if_neg hlarge, if_neg hlarge]
      dsimp only
      unfold reserve
      by_cases hcapacity : 2 ^ 63 ≤ length
      · have hover : maxCapacity < length := by omega
        rw [if_pos hcapacity, if_pos hover]
      · have hfits : ¬ maxCapacity < length := by omega
        rw [if_neg hcapacity, if_neg hfits]
        cases canReserve length <;> rfl

end Detab.Expansion
