import Detab.Config.Loading
import Detab.Proofs.Config.Entries
import Detab.Proofs.Number.Rounding
import Detab.Proofs.Running.Actions
import Mathlib.Algebra.Order.Floor.Semifield

set_option relaxedAutoImplicit false
set_option autoImplicit false

/-!
# The width in a file of settings

A numeral for the width goes through the binary64 format, loses its fraction and is kept within 64
bits. So it is taken exactly only if it is a whole number that is not too large.

## Main definitions

* `Detab.Json5.Numeral.value?` — the value of a numeral.
* `Detab.Config.holding` — a tree with one file of settings.

## Main results

* `Detab.Binary64.toInt64_of_value` — a number without its fraction.
* `Detab.Layer.width_of_readWidth` — the width that a numeral gives.
* `Detab.Config.width_of_readLayer` — **which width a file of settings gives.**
* `Detab.Config.readLayer_fraction` — neither a fraction nor every number below zero is rejected.
-/

namespace Detab

/-! ## Values -/

/-- **The value of a numeral,** unless it is `Infinity` or `NaN`. -/
def Json5.Numeral.value? (numeral : Json5.Numeral) : Option ℚ :=
  let negative : Bool := numeral.sign = some .minus
  match numeral.magnitude with
  | .hex digits => some (Binary64.signed negative (foldDigits 16 0 digits))
  | .infinity => none
  | .nan => none
  | .decimal whole fraction exponent =>
    let fraction := fraction.getD []
    some (Binary64.signed negative
      (foldDigits 10 0 (whole ++ fraction) * 10 ^ (exponent.getD 0 - fraction.length)))

namespace Binary64

/-- The magnitude without its fraction, as it is computed. -/
def whole (s : ℕ) (e : ℤ) : ℕ :=
  if 0 ≤ e then s * Nat.pow 2 e.toNat else s / Nat.pow 2 (-e).toNat

/-- The magnitude without its fraction is the floor of the magnitude as a rational number.

**Proof sketch.** By the sign of the exponent: the magnitude is a whole number, or a quotient by a
power of two, whose floor is division of natural numbers. -/
lemma whole_eq_floor (s : ℕ) (e : ℤ) : whole s e = ⌊(s : ℚ) * 2 ^ e⌋₊ := by
  unfold whole
  split
  · rename_i he
    have hvalue : (s : ℚ) * 2 ^ e = (s * 2 ^ e.toNat : ℕ) := by
      rw [two_zpow_toNat he]
      push_cast
      rfl
    rw [hvalue, Nat.floor_natCast]
    rfl
  · rename_i he
    have hvalue : (s : ℚ) * 2 ^ e = s / (2 ^ (-e).toNat : ℕ) := by
      push_cast
      rw [← two_zpow_toNat (by omega), zpow_neg, div_inv_eq_mul]
    rw [hvalue, Nat.floor_div_eq_div]
    rfl

/-- A number that is finite is read as a signed integer by leaving out its fraction, and then
keeping within the bounds of 64 bits. -/
lemma toInt64_finite (negative : Bool) (s : ℕ) (e : ℤ) :
    (finite negative s e).toInt64 =
      if negative then max minInt64 (-(whole s e : ℤ)) else min maxInt64 (whole s e) := by
  unfold toInt64 whole
  dsimp only
  split_ifs <;> rfl

/-- No number is read as more than the greatest signed integer of 64 bits, infinities included. -/
lemma toInt64_le (x : Binary64) : x.toInt64 ≤ maxInt64 := by
  cases x with
  | infinite negative => cases negative <;> decide
  | nan => decide
  | finite negative s e =>
    rw [toInt64_finite]
    have hmin : minInt64 ≤ maxInt64 := by decide
    have hmax : 0 ≤ maxInt64 := by decide
    split <;> omega

/-- **A number without its fraction,** where that is not negative.

**Proof sketch.** By the sign. A number that is not negative keeps its floor. A negative one is read
as something that is not negative only if its magnitude has no whole part, so it is above -1 and is
read as zero. -/
lemma toInt64_of_value {x : Binary64} {v : ℚ} (h : x.value? = some v) (h0 : 0 ≤ x.toInt64) :
    -1 < v ∧ x.toInt64 = min maxInt64 ⌊v⌋₊ := by
  cases x with
  | infinite negative => simp [value?] at h
  | nan => simp [value?] at h
  | finite negative s e =>
    rw [value?_finite] at h
    obtain rfl := Option.some.inj h
    rw [toInt64_finite] at h0 ⊢
    have hpos : (0 : ℚ) ≤ s * 2 ^ e := mul_nonneg (by positivity) (two_zpow_pos e).le
    cases negative with
    | false =>
      simp only [signed, Bool.false_eq_true, if_false, whole_eq_floor] at h0 ⊢
      exact ⟨by linarith, trivial⟩
    | true =>
      simp only [signed, if_true] at h0 ⊢
      have hwhole : whole s e = 0 := by
        have hmin : minInt64 < 0 := by decide
        omega
      have hless : (s : ℚ) * 2 ^ e < 1 := Nat.floor_eq_zero.mp (whole_eq_floor s e ▸ hwhole)
      have hfloor : ⌊-((s : ℚ) * 2 ^ e)⌋₊ = 0 := Nat.floor_of_nonpos (by linarith)
      rw [hwhole, hfloor]
      exact ⟨by linarith, by decide⟩

end Binary64

namespace Layer

open Json5

variable {width : Option Width}

/-! ## One numeral -/

/-- What a numeral is read as is nearest to its value.

**Proof sketch.** By the ways in which a number is written. What is written in base 16 is taken only as
a whole number that is in the format; such a number is nearest to itself. A decimal number is rounded to
a nearest value, with its sign. -/
lemma isNearest_of_toBinary64 {numeral : Numeral} {x : Binary64} {v : ℚ}
    (h : numeral.toBinary64 = .ok x) (hv : numeral.value? = some v) :
    ∃ y, x.value? = some y ∧ Binary64.IsNearest y v := by
  obtain ⟨sign, magnitude⟩ := numeral
  cases magnitude with
  | hex digits =>
    cases sign with
    | some sign => simp [Numeral.toBinary64] at h
    | none =>
      simp only [Numeral.value?, Option.some.injEq] at hv
      simp only [Numeral.toBinary64, Numeral.hexValue, digitsValue_eq_foldDigits] at h
      split at h
      · rename_i hsmall
        obtain rfl := Except.ok.inj h
        obtain rfl : ((foldDigits 16 0 digits : ℕ) : ℚ) = v := hv
        refine ⟨_, by simp [Binary64.ofNat, Binary64.value?], Binary64.isNearest_self
          (Binary64.inFormat_of_le _ (hsmall.le.trans (by decide)))⟩
      · simp [Except.map] at h
  | infinity => simp [Numeral.value?] at hv
  | nan => simp [Numeral.value?] at hv
  | decimal whole fraction exponent =>
    simp only [Numeral.value?, Option.some.injEq] at hv
    subst hv
    simp only [Numeral.toBinary64, digitsValue_eq_foldDigits] at h
    rcases Binary64.exists_value_of_ofDecimal (decide (sign = some .minus))
      (foldDigits 10 0 (whole ++ fraction.getD [])) (exponent.getD 0 - (fraction.getD []).length) with
      ⟨_, hinfinite⟩ | ⟨y, hy⟩
    · simp [hinfinite] at h
    · refine ⟨y, ?_, Binary64.isNearest_ofDecimal hy⟩
      split at h
      · simp at h
      · obtain rfl := Except.ok.inj h
        exact hy

/-- **The width that a numeral gives:** a number nearest to its value, without its fraction, and at
most the greatest one of 64 bits with a sign. -/
lemma width_of_readWidth {numeral : Numeral} (h : readWidth (.numeral numeral) = .ok width) :
    ∃ x w, numeral.toBinary64 = .ok x ∧ 0 ≤ x.toInt64 ∧ width = some w ∧
      (w.toNat : ℤ) = x.toInt64 := by
  rw [readWidth] at h
  cases hx : numeral.toBinary64 with
  | error cause => simp [hx] at h
  | ok x =>
    simp only [hx] at h
    split at h
    · simp at h
    · rename_i h0
      obtain rfl := Except.ok.inj h
      refine ⟨x, _, rfl, not_lt.mp h0, rfl, ?_⟩
      have hmax := x.toInt64_le
      simp only [Binary64.maxInt64] at hmax
      rw [UInt64.toNat_ofNat', Nat.mod_eq_of_lt (by omega), Int.toNat_of_nonneg (not_lt.mp h0)]

/-- The width that a numeral with a value gives.

**Proof sketch.** What is read is the floor of a nearest value, unless that is too large. If the
numeral's value were at most -1, so would be the nearest one, because -1 is in the format. -/
lemma nearest_of_readWidth {numeral : Numeral} {w : Width} {v : ℚ}
    (h : readWidth (.numeral numeral) = .ok (some w)) (hv : numeral.value? = some v) :
    -1 < v ∧ ∃ x, Binary64.IsNearest x v ∧ w.toNat = min (2 ^ 63 - 1) ⌊x⌋₊ := by
  obtain ⟨x, _, hx, h0, hsame, hnat⟩ := width_of_readWidth h
  obtain rfl := Option.some.inj hsame
  obtain ⟨y, hy, hnearest⟩ := isNearest_of_toBinary64 hx hv
  obtain ⟨hpos, hfloor⟩ := Binary64.toInt64_of_value hy h0
  refine ⟨?_, y, hnearest, ?_⟩
  · -- a value of at most -1 would be read as one, since -1 is in the format
    by_contra hle
    have hone : Binary64.InFormat (-1) := by
      simpa using (Binary64.inFormat_of_le 1 (by decide)).neg
    linarith [hnearest.le_of_le hone (not_lt.mp hle)]
  · rw [hfloor] at hnat
    simp only [Binary64.maxInt64] at hnat
    omega

/-- The width that infinity gives. -/
lemma toNat_of_infinity {sign : Option Sign} {w : Width}
    (h : readWidth (.numeral ⟨sign, .infinity⟩) = .ok (some w)) : w.toNat = 2 ^ 63 - 1 := by
  obtain ⟨x, _, hx, h0, hsame, hnat⟩ := width_of_readWidth h
  obtain rfl := Option.some.inj hsame
  rcases sign with _ | _ | _
  · obtain rfl := Except.ok.inj hx
    exact Int.ofNat_inj.mp hnat
  · simp [Numeral.toBinary64] at hx
  · obtain rfl := Except.ok.inj hx
    exact absurd h0 (by decide)

/-- The width that is given by what is not a number. -/
lemma eq_zero_of_nan {sign : Option Sign} {w : Width}
    (h : readWidth (.numeral ⟨sign, .nan⟩) = .ok (some w)) : w = 0 := by
  obtain ⟨x, _, hx, h0, hsame, hnat⟩ := width_of_readWidth h
  obtain rfl := Option.some.inj hsame
  refine UInt64.toNat_inj.mp ?_
  rcases sign with _ | _ | _
  · obtain rfl := Except.ok.inj hx
    exact Int.ofNat_inj.mp hnat
  · simp [Numeral.toBinary64] at hx
  · obtain rfl := Except.ok.inj hx
    exact Int.ofNat_inj.mp hnat

end Layer

namespace Config

open Json5

variable {world world' : World} {path : Path} {layer : Layer}

/-- **What is read from a file of text** is what the text holds. -/
lemma run_readLayer {contents : ByteArray} {text : List Char}
    (hread : world.fs.read path = .ok contents)
    (htext : Utf8.strict? (unpack contents) = some text) :
    (readLayer path).run.run world = ((Layer.ofText text).mapError (.invalid path), world) := by
  have hfirst := Action.run_read (Error.unreadable path) path world
  rw [hread] at hfirst
  refine (Action.run_bind_of_ok hfirst).trans ?_
  rw [htext]
  cases hlayer : Layer.ofText text with
  | error cause =>
    simp only [hlayer]
    rfl
  | ok layer =>
    simp only [hlayer]
    rfl

/-- Where settings were read from a file, they are those of its text. -/
lemma ofText_of_readLayer {contents : ByteArray} {text : List Char}
    (hread : world.fs.read path = .ok contents)
    (htext : Utf8.strict? (unpack contents) = some text)
    (h : (readLayer path).run.run world = (.ok layer, world')) : Layer.ofText text = .ok layer := by
  obtain ⟨hsame, -⟩ := Prod.mk.inj ((run_readLayer hread htext).symm.trans h)
  cases hlayer : Layer.ofText text with
  | error cause => simp [hlayer, Except.mapError] at hsame
  | ok layer' =>
    rw [hlayer] at hsame
    rw [Except.ok.inj hsame]

/-- **Which width a file of settings gives.** Let its text be an object in which the width is a
numeral. If the file can be read, its width is the number nearest to the numeral's value, without its
fraction, or `2 ^ 63 - 1` if that is less; so whole numbers up to `2 ^ 53` are taken exactly, and no
value of at most -1 is taken at all. Infinity gives `2 ^ 63 - 1`, and what is not a number gives
zero.

**Proof sketch.** The width is the numeral of the one entry with its key, read as a signed integer
by `width_of_readWidth` and `nearest_of_readWidth`. A whole number up to `2 ^ 53` is in the format,
so that the nearest value is the number itself. -/
theorem width_of_readLayer {contents : ByteArray} {text : List Char}
    {members : List (CodePoints × Value)} {key : CodePoints} {numeral : Numeral}
    (hread : world.fs.read path = .ok contents)
    (htext : Utf8.strict? (unpack contents) = some text)
    (hparse : parse? text = some (.object members))
    (hmember : (key, .numeral numeral) ∈ members)
    (hkey : characters? key = some Layer.Field.spaces.name.toList)
    (h : (readLayer path).run.run world = (.ok layer, world')) :
    ∃ width, layer.width = some width ∧
      (∀ v, numeral.value? = some v → -1 < v ∧
        ∃ x, Binary64.IsNearest x v ∧ width.toNat = min (2 ^ 63 - 1) ⌊x⌋₊) ∧
      (∀ n : ℕ, n ≤ 2 ^ 53 → numeral.value? = some (n : ℚ) → width.toNat = n) ∧
      (numeral.magnitude = .infinity → width.toNat = 2 ^ 63 - 1) ∧
      (numeral.magnitude = .nan → width = 0) := by
  have hlayer := ofText_of_readLayer hread htext h
  obtain ⟨given, hgiven, rfl⟩ : ∃ given, Layer.Given.takeAll ⟨none, none⟩ members = .ok given ∧
      given.layer = layer := by
    simp only [Layer.ofText, hparse, Layer.ofValue] at hlayer
    cases hgiven : Layer.Given.takeAll ⟨none, none⟩ members with
    | error e => simp [hgiven, Except.map] at hlayer
    | ok given =>
      rw [hgiven] at hlayer
      exact ⟨given, rfl, Except.ok.inj hlayer⟩
  obtain rfl : key = Layer.Field.spaces.key := eq_codePoints_of_characters? hkey
  obtain ⟨_, hwidth, htaken⟩ :=
    (Layer.takeAll_eq_ok_iff.mp hgiven).present .spaces (.numeral numeral) hmember
  obtain ⟨-, width, -, -, rfl, -⟩ := Layer.width_of_readWidth hwidth
  refine ⟨width, ?_, fun v hv => Layer.nearest_of_readWidth hwidth hv, fun n hn hv => ?_, ?_, ?_⟩
  · exact congrArg (·.getD none) htaken
  · obtain ⟨-, x, hx, hfloor⟩ := Layer.nearest_of_readWidth hwidth hv
    obtain rfl := hx.eq_of_inFormat (Binary64.inFormat_of_le n hn)
    rw [hfloor, Nat.floor_natCast]
    omega
  · obtain ⟨sign, magnitude⟩ := numeral
    rintro rfl
    exact Layer.toNat_of_infinity hwidth
  · obtain ⟨sign, magnitude⟩ := numeral
    rintro rfl
    exact Layer.eq_zero_of_nan hwidth

/-- A tree with one file of settings. -/
def holding (text : String) : World where
  fs :=
    { rootMode := .newDirectory
      root := .leaf (utf8 "config.json5") (.file 0) .empty
      files := [⟨pack (utf8 text), .newFile⟩]
      workingDirectory := [] }
  session := .start 7 (fun n => n) none

/-- A file in which the width is a numeral holds an object with that one member. -/
lemma parse?_of_scan {text : List Char} {numeral : Numeral}
    (h : scan text = some [.openBrace, .word (codePoints "spaces".toList) false, .colon,
      .numeral numeral, .closeBrace]) :
    parse? text = some (.object [(codePoints "spaces".toList, .numeral numeral)]) := by
  rw [parse?, h]
  rfl

/-- The width 2.9 is taken as 2. -/
theorem width_of_readLayer_fraction :
    ∃ layer, ((readLayer (utf8 "config.json5")).run.run (holding "\x7b spaces: 2.9 \x7d")).1 =
        .ok layer ∧
      ∃ width, layer.width = some width ∧
        ∃ x, Binary64.IsNearest x (29 / 10) ∧ width.toNat = min (2 ^ 63 - 1) ⌊x⌋₊ := by
  have hrun : ((readLayer (utf8 "config.json5")).run.run
      (holding "\x7b spaces: 2.9 \x7d")).1 = .ok ⟨none, some 2⟩ := by decide +kernel
  have hread : (holding "\x7b spaces: 2.9 \x7d").fs.read (utf8 "config.json5") =
      .ok (pack (utf8 "\x7b spaces: 2.9 \x7d")) := by rfl
  have htext : Utf8.strict? (unpack (pack (utf8 "\x7b spaces: 2.9 \x7d"))) =
      some "\x7b spaces: 2.9 \x7d".toList := by decide +kernel
  have hparse : parse? "\x7b spaces: 2.9 \x7d".toList =
      some (.object [(codePoints "spaces".toList,
        .numeral ⟨none, .decimal ['2'] (some ['9']) none⟩)]) := parse?_of_scan (by decide +kernel)
  obtain ⟨width, hwidth, hvalue, -⟩ := width_of_readLayer hread htext hparse
    (List.mem_singleton.mpr rfl) (by decide +kernel) (Prod.mk.eta.symm.trans (by rw [hrun]))
  obtain ⟨-, hnearest⟩ := hvalue (29 / 10) (by decide +kernel)
  exact ⟨_, hrun, width, hwidth, hnearest⟩

/-- **A fraction is not rejected, and neither is every number below zero:** the widths 2.9 and -0.5
are taken as 2 and 0. -/
theorem readLayer_fraction :
    (∃ numeral : Numeral, numeral.value? = some (29 / 10) ∧
      parse? "\x7b spaces: 2.9 \x7d".toList =
        some (.object [(codePoints "spaces".toList, .numeral numeral)]) ∧
      ((readLayer (utf8 "config.json5")).run.run (holding "\x7b spaces: 2.9 \x7d")).1 =
        .ok ⟨none, some 2⟩) ∧
    ∃ numeral : Numeral, numeral.value? = some (-1 / 2) ∧
      parse? "\x7b spaces: -0.5 \x7d".toList =
        some (.object [(codePoints "spaces".toList, .numeral numeral)]) ∧
      ((readLayer (utf8 "config.json5")).run.run (holding "\x7b spaces: -0.5 \x7d")).1 =
        .ok ⟨none, some 0⟩ :=
  ⟨⟨⟨none, .decimal ['2'] (some ['9']) none⟩, by decide +kernel,
      parse?_of_scan (by decide +kernel), by decide +kernel⟩,
    ⟨⟨some .minus, .decimal ['0'] (some ['5']) none⟩, by decide +kernel,
      parse?_of_scan (by decide +kernel), by decide +kernel⟩⟩

end Config

end Detab
