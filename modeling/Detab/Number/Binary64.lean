import Detab.Bytes

set_option relaxedAutoImplicit false
set_option autoImplicit false

/-!
# Numbers of the binary64 format

A number that is written in decimal is taken as the nearest number of the binary64 format. The
format is described by its values: a significand below `2 ^ 53` times a power of two. All work is
exact, on natural numbers.

## Main definitions

* `Detab.Binary64` — a number of the format, an infinity, or no number.
* `Detab.Binary64.ofDecimal` — the number nearest to `digits * 10 ^ exponent`.
* `Detab.Binary64.toInt64` — the number without its fraction, kept within 64 bits.
-/

namespace Detab

/-- A number of the binary64 format. -/
inductive Binary64 where
  /-- `significand * 2 ^ exponent`, or its negative. -/
  | finite (negative : Bool) (significand : Nat) (exponent : Int)
  /-- Too large for the format, or written as infinite. -/
  | infinite (negative : Bool)
  /-- Not a number. -/
  | nan
  deriving DecidableEq, Repr

namespace Binary64

/-- The bits of a significand. -/
def precision : Nat := 53

/-- The least exponent of the format. -/
def minExponent : Int := -1074

/-- The greatest exponent of the format. -/
def maxExponent : Int := 971

/-! ## Rounding -/

/-- A quotient, rounded to the nearest natural number; a tie goes to the even neighbour. -/
def divideToEven (numerator denominator : Nat) : Nat :=
  let quotient := numerator / denominator
  let twice := 2 * (numerator % denominator)
  if denominator < twice || (twice == denominator && quotient % 2 == 1) then quotient + 1
  else quotient

/-- Numerator and denominator of `numerator / denominator / 2 ^ exponent`. -/
def scaled (numerator denominator : Nat) (exponent : Int) : Nat × Nat :=
  if 0 ≤ exponent then (numerator, denominator * Nat.pow 2 exponent.toNat)
  else (numerator * Nat.pow 2 (-exponent).toNat, denominator)

/-- **The exponent for a quotient:** the one that gives its significand all bits of the format, or
the least one of the format. -/
def exponentFor (numerator denominator : Nat) : Int :=
  let estimate : Int := (numerator.log2 : Int) - denominator.log2 - precision
  let (n, d) := scaled numerator denominator estimate
  max minExponent (if n / d < Nat.pow 2 precision then estimate else estimate + 1)

/-- The number of the format that is nearest to a quotient of natural numbers. -/
def ofQuotient (negative : Bool) (numerator denominator : Nat) : Binary64 :=
  let exponent := exponentFor numerator denominator
  let (n, d) := scaled numerator denominator exponent
  let significand := divideToEven n d
  let (significand, exponent) :=
    if significand = Nat.pow 2 precision then (Nat.pow 2 (precision - 1), exponent + 1)
    else (significand, exponent)
  if maxExponent < exponent then .infinite negative
  else .finite negative significand exponent

/-- The number of decimal digits of a natural number. -/
def digitCount (n : Nat) : Nat :=
  (Nat.toDigits 10 n).length

/-- **The number nearest to `digits * 10 ^ exponent`.** Far outside the format's range the answer is
known without computing the power, because ten is more than the third power of two. -/
def ofDecimal (negative : Bool) (digits : Nat) (exponent : Int) : Binary64 :=
  let magnitude := (digits.log2 : Int) + 3 * exponent
  if digits = 0 then .finite negative 0 0
  else if 0 ≤ exponent then
    if 1024 ≤ magnitude then .infinite negative
    else ofQuotient negative (digits * Nat.pow 10 exponent.toNat) 1
  else if magnitude < -1075 then .finite negative 0 0
  else ofQuotient negative digits (Nat.pow 10 (-exponent).toNat)

/-- A natural number below `2 ^ 53`, exactly. -/
def ofNat (n : Nat) : Binary64 :=
  .finite false n 0

/-! ## Reading as an integer -/

/-- The least signed 64-bit number. -/
def minInt64 : Int := -0x8000000000000000

/-- The greatest signed 64-bit number. -/
def maxInt64 : Int := 0x7FFFFFFFFFFFFFFF

/-- **The number without its fraction,** or the nearest end of the range of signed 64-bit numbers.
What is not a number gives zero. -/
def toInt64 : Binary64 → Int
  | .nan => 0
  | .infinite negative => if negative then minInt64 else maxInt64
  | .finite negative significand exponent =>
    let magnitude : Int :=
      if 0 ≤ exponent then (significand * Nat.pow 2 exponent.toNat : Nat)
      else (significand / Nat.pow 2 (-exponent).toNat : Nat)
    if negative then max minInt64 (-magnitude) else min maxInt64 magnitude

end Binary64

end Detab
