import Detab.Number.Binary64

set_option relaxedAutoImplicit false
set_option autoImplicit false

/-!
# Numerals

A numeral is kept as it was written, because what it stands for depends on who asks. Read as an
integer it must be one of 64 bits; read as a number of the binary64 format it may have a fraction
or an exponent. Hexadecimal numerals are limited to 32 bits, and have a value only without a sign.

## Main definitions

* `Detab.Json5.Numeral` — a numeral as written.
* `Detab.Json5.Numeral.read?` — the numeral at the head of a text.
* `Detab.Json5.Numeral.isInteger` — whether it is written as an integer.
* `Detab.Json5.Numeral.toInteger`, `Detab.Json5.Numeral.toBinary64` — its two readings.
-/

namespace Detab.Json5

/-- The value of a digit in base sixteen. -/
def hexDigit? (c : Char) : Option Nat :=
  if '0' ≤ c ∧ c ≤ '9' then some (c.toNat - '0'.toNat)
  else if 'a' ≤ c ∧ c ≤ 'f' then some (c.toNat - 'a'.toNat + 10)
  else if 'A' ≤ c ∧ c ≤ 'F' then some (c.toNat - 'A'.toNat + 10)
  else none

/-- The number that some digits spell behind a number. -/
def foldDigits (base value : Nat) (digits : List Char) : Nat :=
  digits.foldl (fun value c => value * base + (hexDigit? c).getD 0) value

/-- The number that some digits spell in a base. Many digits are read in two halves, so that the
numbers on the way stay short. -/
def digitsValue (base : Nat) (digits : List Char) : Nat :=
  if digits.length ≤ 32 then foldDigits base 0 digits
  else
    let half := digits.length / 2
    digitsValue base (digits.take half) * Nat.pow base (digits.length - half) +
      digitsValue base (digits.drop half)
termination_by digits.length
decreasing_by
  · simp only [List.length_take]; omega
  · simp only [List.length_drop]; omega

/-- Digits behind a number count as they do alone, and the number moves up by their places. -/
theorem foldDigits_eq (base value : Nat) (digits : List Char) :
    foldDigits base value digits = value * Nat.pow base digits.length + foldDigits base 0 digits := by
  induction digits generalizing value with
  | nil => simp [foldDigits]
  | cons c rest ih =>
    have step : ∀ v, foldDigits base v (c :: rest) =
        foldDigits base (v * base + (hexDigit? c).getD 0) rest := fun _ => rfl
    have succ : Nat.pow base (rest.length + 1) = Nat.pow base rest.length * base := rfl
    rw [step, step, ih, ih (0 * base + _), List.length_cons, succ]
    generalize Nat.pow base rest.length = power
    generalize (hexDigit? c).getD 0 = digit
    rw [Nat.zero_mul, Nat.zero_add, Nat.add_mul, Nat.mul_assoc, Nat.mul_comm base power,
      Nat.add_assoc]

/-- Reading in halves is reading from the left. -/
theorem digitsValue_eq_foldDigits (base : Nat) (digits : List Char) :
    digitsValue base digits = foldDigits base 0 digits := by
  fun_induction digitsValue base digits with
  | case1 digits _ => rfl
  | case2 digits _ half ih₁ ih₂ =>
    have split : foldDigits base 0 digits =
        foldDigits base (foldDigits base 0 (digits.take half)) (digits.drop half) := by
      simp only [foldDigits, ← List.foldl_append, List.take_append_drop]
    rw [split, foldDigits_eq, ih₁, ih₂, List.length_drop]

/-- The sign of a numeral. -/
inductive Sign where
  | plus
  | minus
  deriving DecidableEq, Repr

/-- A numeral without its sign. -/
inductive Magnitude where
  /-- `0x` and some digits in base sixteen. -/
  | hex (digits : List Char)
  /-- `Infinity`. -/
  | infinity
  /-- `NaN`. -/
  | nan
  /-- Digits, then perhaps a point and more digits, then perhaps an exponent. -/
  | decimal (whole : List Char) (fraction : Option (List Char)) (exponent : Option Int)
  deriving DecidableEq, Repr

/-- A numeral as it was written. -/
structure Numeral where
  sign : Option Sign
  magnitude : Magnitude
  deriving DecidableEq, Repr

namespace Numeral

/-! ## Reading a text -/

/-- A digit in base ten. -/
def isDigit (c : Char) : Bool :=
  '0' ≤ c && c ≤ '9'

/-- The sign at the head of a text, and the rest. -/
def readSign : List Char → Option Sign × List Char
  | '+' :: rest => (some .plus, rest)
  | '-' :: rest => (some .minus, rest)
  | text => (none, text)

/-- The least exponent that takes in no further digit. -/
def exponentLimit : Nat := 0x10000

/-- The exponent that some digits spell. It is read from the left, and once it has reached
`exponentLimit` the remaining digits do not count. -/
def exponentValue (digits : List Char) : Nat :=
  digits.foldl
    (fun value c => if value < exponentLimit then value * 10 + (hexDigit? c).getD 0 else value) 0

/-- The exponent at the head of a text, if there is one, and the rest. An `e` without digits is no
exponent. -/
def readExponent (text : List Char) : Option Int × List Char :=
  match text with
  | e :: rest =>
    if e = 'e' ∨ e = 'E' then
      let (sign, rest) := readSign rest
      let digits := rest.takeWhile isDigit
      if digits.isEmpty then (none, text)
      else
        let value : Int := exponentValue digits
        (some (if sign = some .minus then -value else value), rest.dropWhile isDigit)
    else (none, text)
  | [] => (none, [])

/-- The digits before the point: a lone zero, or digits that do not begin with one. -/
def readWhole : List Char → List Char × List Char
  | '0' :: rest => (['0'], rest)
  | text => (text.takeWhile isDigit, text.dropWhile isDigit)

/-- The decimal numeral at the head of a text, and the rest. There has to be a digit before the
exponent. -/
def readDecimal? (text : List Char) : Option (Magnitude × List Char) :=
  let (whole, rest) := readWhole text
  match rest with
  | '.' :: rest =>
    let fraction := rest.takeWhile isDigit
    if whole.isEmpty && fraction.isEmpty then none
    else
      let (exponent, rest) := readExponent (rest.dropWhile isDigit)
      some (.decimal whole (some fraction) exponent, rest)
  | rest =>
    if whole.isEmpty then none
    else
      let (exponent, rest) := readExponent rest
      some (.decimal whole none exponent, rest)

/-- The unsigned numeral at the head of a text, and the rest. A `0x` without digits is the numeral
zero with something after it. -/
def readMagnitude? (text : List Char) : Option (Magnitude × List Char) :=
  match text with
  | '0' :: x :: rest =>
    let digits := rest.takeWhile fun c => (hexDigit? c).isSome
    if (x = 'x' ∨ x = 'X') ∧ digits ≠ [] then
      some (.hex digits, rest.dropWhile fun c => (hexDigit? c).isSome)
    else readDecimal? text
  | 'I' :: 'n' :: 'f' :: 'i' :: 'n' :: 'i' :: 't' :: 'y' :: rest => some (.infinity, rest)
  | 'N' :: 'a' :: 'N' :: rest => some (.nan, rest)
  | text => readDecimal? text

/-- **The numeral at the head of a text,** and the rest. -/
def read? (text : List Char) : Option (Numeral × List Char) :=
  let (sign, rest) := readSign text
  (readMagnitude? rest).map fun (magnitude, rest) => (⟨sign, magnitude⟩, rest)

/-! ## What a numeral stands for -/

/-- Why a numeral has no value of the kind that is asked for. -/
inductive Error where
  /-- A hexadecimal numeral of more than 32 bits. -/
  | hexTooLarge
  /-- No integer of 64 bits. -/
  | noInteger
  /-- No number at all. -/
  | noNumber
  /-- A number beyond the binary64 format. -/
  | tooLarge
  deriving DecidableEq, Repr

/-- The wording of an error. -/
def Error.message : Error → String
  | .hexTooLarge => "error parsing hex"
  | .noInteger => "error parsing integer"
  | .noNumber => "error parsing number"
  | .tooLarge => "error parsing number: too large"

/-- The value of a hexadecimal numeral. -/
def hexValue (digits : List Char) : Except Error Nat :=
  let value := digitsValue 16 digits
  if value < UInt32.size then .ok value else .error .hexTooLarge

/-- **Whether a numeral is written as an integer.** A signed hexadecimal numeral is one only if the
letter e, which would make an exponent elsewhere, is not among its digits. -/
def isInteger (numeral : Numeral) : Bool :=
  match numeral.magnitude with
  | .hex digits => numeral.sign.isNone || digits.all fun c => c ≠ 'e' && c ≠ 'E'
  | .decimal _ fraction exponent => fraction.isNone && exponent.isNone
  | .infinity => false
  | .nan => false

/-- The reading as a signed integer of 64 bits. -/
def toInteger (numeral : Numeral) : Except Error Int :=
  match numeral.magnitude, numeral.sign with
  | .hex digits, none => (hexValue digits).map Int.ofNat
  | .decimal whole none none, sign =>
    let value : Int := digitsValue 10 whole
    let value := if sign = some .minus then -value else value
    if Binary64.minInt64 ≤ value ∧ value ≤ Binary64.maxInt64 then .ok value
    else .error .noInteger
  | _, _ => .error .noInteger

/-- **The reading as a number of the binary64 format.** Infinity and NaN have it only without a plus
sign. -/
def toBinary64 (numeral : Numeral) : Except Error Binary64 :=
  match numeral.magnitude, numeral.sign with
  | .hex digits, none => (hexValue digits).map Binary64.ofNat
  | .hex _, some _ => .error .noNumber
  | .infinity, some .plus => .error .tooLarge
  | .infinity, sign => .ok (.infinite (sign = some .minus))
  | .nan, some .plus => .error .tooLarge
  | .nan, _ => .ok .nan
  | .decimal whole fraction exponent, sign =>
    let fraction := fraction.getD []
    let digits := digitsValue 10 (whole ++ fraction)
    match Binary64.ofDecimal (sign = some .minus) digits (exponent.getD 0 - fraction.length) with
    | .infinite _ => .error .tooLarge
    | number => .ok number

end Numeral

end Detab.Json5
