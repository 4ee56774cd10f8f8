set_option relaxedAutoImplicit false
set_option autoImplicit false

/-!
# Sets of characters as ranges of code points

## Main definitions

* `Detab.CodeRanges` — ascending ranges of code points, both ends included.
* `Detab.CodeRanges.contains` — whether a character lies in one of them.
-/

namespace Detab

/-- A set of characters, given by ascending ranges of code points with both ends included. -/
abbrev CodeRanges := List (Nat × Nat)

/-- Whether a character lies in one of the ranges. -/
def CodeRanges.contains (ranges : CodeRanges) (c : Char) : Bool :=
  ranges.any fun (low, high) => decide (low ≤ c.toNat) && decide (c.toNat ≤ high)

end Detab
