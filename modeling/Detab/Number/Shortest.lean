import Detab.Number.Binary64

set_option relaxedAutoImplicit false
set_option autoImplicit false

/-!
# The shortest decimal of a number

A number of the binary64 format is written with the fewest digits that read back as it, and of
those decimals the nearest is taken. The search tries one digit, then two, and so on: on each grid
of decimals only the two neighbours of the number have to be looked at.

## Main definitions

* `Detab.Binary64.Decimal` — a decimal.
* `Detab.Binary64.readsBack` — whether a decimal reads back as a number.
* `Detab.Binary64.shortest` — the shortest decimal that does.
* `Detab.Binary64.text` — that decimal, written out without an exponent.
-/

namespace Detab.Binary64

/-! ## Decimals -/

/-- A decimal: `digits * 10 ^ exponent`. -/
structure Decimal where
  digits : Nat
  exponent : Int
  deriving DecidableEq, Repr

/-- Whether `digits * 10 ^ exponent` reads back as the number `significand * 2 ^ e`, that is, lies
between the middles to its two neighbours. The middles themselves are read as the neighbour whose
significand is even. -/
def readsBack (significand : Nat) (e : Int) (decimal : Decimal) : Bool :=
  let below := if significand = Nat.pow 2 (precision - 1) && minExponent < e then 1 else 2
  let (low, lowUnit) := scaled (4 * significand - below) 1 (2 - e)
  let (high, highUnit) := scaled (4 * significand + 2) 1 (2 - e)
  let (n, d) :=
    if 0 ≤ decimal.exponent then (decimal.digits * Nat.pow 10 decimal.exponent.toNat, 1)
    else (decimal.digits, Nat.pow 10 (-decimal.exponent).toNat)
  if significand % 2 = 0 then low * d ≤ n * lowUnit && n * highUnit ≤ high * d
  else low * d < n * lowUnit && n * highUnit < high * d

/-- The number of digits before the point in the decimal form of a quotient; zero or less when the
quotient is below one tenth. -/
def pointPosition (numerator denominator : Nat) : Int :=
  if denominator ≤ numerator then digitCount (numerator / denominator)
  else
    let zeros := digitCount (denominator / numerator)
    if numerator * Nat.pow 10 zeros < denominator then -(zeros : Int)
    else if numerator * Nat.pow 10 (zeros - 1) < denominator then 1 - (zeros : Int)
    else 2 - (zeros : Int)

/-- The shortest decimal with at least `count` digits, of which the nearest; of two equally near
ones the greater. `fuel` bounds the digits that are still tried. -/
def shortestFrom (significand : Nat) (e : Int) (numerator denominator : Nat) (point : Int) :
    (fuel count : Nat) → Decimal
  | 0, count =>
    let exponent := point - count
    let (n, d) := if 0 ≤ exponent then (numerator, denominator * Nat.pow 10 exponent.toNat)
      else (numerator * Nat.pow 10 (-exponent).toNat, denominator)
    ⟨n / d, exponent⟩
  | fuel + 1, count =>
    let exponent := point - count
    let (n, d) := if 0 ≤ exponent then (numerator, denominator * Nat.pow 10 exponent.toNat)
      else (numerator * Nat.pow 10 (-exponent).toNat, denominator)
    let down : Decimal := ⟨n / d, exponent⟩
    let up : Decimal :=
      if n / d + 1 = Nat.pow 10 count then ⟨Nat.pow 10 (count - 1), exponent + 1⟩
      else ⟨n / d + 1, exponent⟩
    if n % d = 0 then down
    else
      match readsBack significand e down, readsBack significand e up with
      | true, true => if d ≤ 2 * (n % d) then up else down
      | true, false => down
      | false, true => up
      | false, false => shortestFrom significand e numerator denominator point fuel (count + 1)

/-- **The shortest decimal that reads back** as `significand * 2 ^ e`; seventeen digits are always
enough. -/
def shortest (significand : Nat) (e : Int) : Decimal :=
  if significand = 0 then ⟨0, 0⟩
  else
    let (numerator, denominator) := scaled significand 1 (-e)
    shortestFrom significand e numerator denominator (pointPosition numerator denominator) 17 1

/-- A decimal without an exponent, and without a point if it is a natural number. -/
def Decimal.plain (decimal : Decimal) : String :=
  let digits := Nat.toDigits 10 decimal.digits
  if 0 ≤ decimal.exponent then
    String.ofList (digits ++ List.replicate decimal.exponent.toNat '0')
  else
    let places := (-decimal.exponent).toNat
    let padded := List.replicate (places + 1 - digits.length) '0' ++ digits
    let whole := padded.length - places
    String.ofList (padded.take whole ++ '.' :: padded.drop whole)

/-- **The text of a number:** the shortest decimal that reads back, with at least one digit after
the point. -/
def text : Binary64 → String
  | .nan => "NaN"
  | .infinite negative => if negative then "-inf" else "inf"
  | .finite negative significand e =>
    let decimal := shortest significand e
    (if negative then "-" else "") ++ decimal.plain ++ (if 0 ≤ decimal.exponent then ".0" else "")

end Detab.Binary64
