import Detab.Number.Binary64
import Mathlib.Algebra.Order.Field.Rat
import Mathlib.Algebra.Order.Field.Power
import Mathlib.Data.Rat.Floor
import Mathlib.Tactic.Linarith
import Mathlib.Tactic.FieldSimp
import Mathlib.Tactic.Ring

set_option relaxedAutoImplicit false
set_option autoImplicit false

/-!
# Rounding to the binary64 format

What is computed from the digits and the exponent of a decimal numeral is a number of the format that
is as near to the numeral's value as any other.

## Main definitions

* `Detab.Binary64.InFormat` — the values of the format.
* `Detab.Binary64.IsNearest` — a value of the format that is nearest to a rational number.
* `Detab.Binary64.value?` — the value of a number of the format.

## Main results

* `Detab.Binary64.exponentFor_spec` — the exponent that is chosen for a quotient.
* `Detab.Binary64.isNearest_ofQuotient`, `Detab.Binary64.isNearest_ofDecimal` — **a number that is
  found for a decimal is nearest to it.**
* `Detab.Binary64.IsNearest.eq_of_inFormat` — a value of the format is nearest to itself only.

## Design

The format has a greatest exponent. It is left out of `InFormat`: numbers are rounded as if there
were none, and then what is too large is infinite.
-/

namespace Detab.Binary64

/-! ## Values -/

/-- **The values of the format:** a significand of 53 bits, with a sign, times a power of two that is
not less than the least one. -/
def InFormat (x : ℚ) : Prop :=
  ∃ (s : ℤ) (e : ℤ), |s| < 2 ^ precision ∧ minExponent ≤ e ∧ x = s * 2 ^ e

/-- **A value of the format that is nearest to a rational number.** -/
structure IsNearest (x v : ℚ) : Prop where
  inFormat : InFormat x
  le : ∀ y, InFormat y → |x - v| ≤ |y - v|

/-- The value of a number of the format, if it is finite. -/
def value? : Binary64 → Option ℚ
  | .finite false s e => some (s * 2 ^ e)
  | .finite true s e => some (-(s * 2 ^ e))
  | .infinite _ => none
  | .nan => none

/-- The format is symmetric: with a value it has its negative. -/
lemma InFormat.neg {x : ℚ} (h : InFormat x) : InFormat (-x) := by
  obtain ⟨s, e, hs, he, rfl⟩ := h
  exact ⟨-s, e, by rwa [abs_neg], he, by push_cast; ring⟩

/-- Being nearest is symmetric. -/
lemma IsNearest.neg {x v : ℚ} (h : IsNearest x v) : IsNearest (-x) (-v) := by
  refine ⟨h.inFormat.neg, fun y hy => ?_⟩
  have hle := h.le (-y) hy.neg
  rwa [← abs_neg (-x - -v), ← abs_neg (y - -v), show -(-x - -v) = x - v by ring,
    show -(y - -v) = -y - v by ring]

/-- A value of the format is nearest to itself only. -/
lemma IsNearest.eq_of_inFormat {x v : ℚ} (h : IsNearest x v) (hv : InFormat v) : x = v := by
  have hle := h.le v hv
  rw [sub_self, abs_zero] at hle
  exact sub_eq_zero.mp (abs_nonpos_iff.mp hle)

/-- A value of the format is nearest to itself. -/
lemma isNearest_self {v : ℚ} (h : InFormat v) : IsNearest v v :=
  ⟨h, fun y _ => by simp⟩

/-- What is nearest to a number is not beyond a value of the format that is not beyond it either. -/
lemma IsNearest.le_of_le {x v y : ℚ} (h : IsNearest x v) (hy : InFormat y) (hle : v ≤ y) :
    x ≤ y := by
  by_contra hgt
  have hfar := h.le y hy
  rw [abs_of_nonneg (by linarith), abs_of_nonneg (by linarith)] at hfar
  linarith

/-- A whole number of at most 53 bits is in the format. -/
lemma inFormat_of_le (n : ℕ) (h : n ≤ 2 ^ precision) : InFormat n := by
  rcases Nat.lt_or_eq_of_le h with hlt | rfl
  · refine ⟨n, 0, ?_, by decide, by simp⟩
    rw [Nat.abs_cast]
    exact_mod_cast hlt
  · exact ⟨1, precision, by decide, by decide, by norm_num [precision]⟩

/-! ## Nearest whole numbers -/

/-- A quotient is a whole number and a fraction. -/
lemma div_eq_add (n : ℕ) {d : ℕ} (hd : 0 < d) :
    (n : ℚ) / d = (n / d : ℕ) + (n % d : ℕ) / (d : ℚ) := by
  have hd' : (d : ℚ) ≠ 0 := by exact_mod_cast hd.ne'
  have hsum : (n : ℚ) = d * (n / d : ℕ) + (n % d : ℕ) := by
    exact_mod_cast (Nat.div_add_mod n d).symm
  rw [div_eq_iff hd', add_mul, div_mul_cancel₀ _ hd', mul_comm]
  exact hsum

/-- **The quotient is rounded to a nearest whole number.**

**Proof sketch.** The quotient lies between two neighbours. The one that is chosen is not farther from
it than the other one, and all other whole numbers lie behind one of them. -/
lemma abs_divideToEven_sub_le (n : ℕ) {d : ℕ} (hd : 0 < d) (k : ℤ) :
    |(divideToEven n d : ℚ) - n / d| ≤ |(k : ℚ) - n / d| := by
  rw [div_eq_add n hd]
  have hd' : (0 : ℚ) < d := by exact_mod_cast hd
  set q := n / d with hq
  set f : ℚ := (n % d : ℕ) / d with hf
  have hf0 : 0 ≤ f := by positivity
  have hk : f ≤ |(k : ℚ) - (q + f)| ∨ 1 - f ≤ |(k : ℚ) - (q + f)| := by
    rcases Int.lt_or_le (q : ℤ) k with hlt | hle
    · have hlt' : (q : ℚ) + 1 ≤ k := by exact_mod_cast hlt
      exact .inr (le_trans (by linarith) (le_abs_self _))
    · have hle' : (k : ℚ) ≤ q := by exact_mod_cast hle
      exact .inl (le_trans (by linarith) (neg_le_abs _))
  have hf1 : f < 1 := by
    rw [hf, div_lt_one hd']
    exact_mod_cast Nat.mod_lt n hd
  have hhalf : (d : ℚ) * f = (n % d : ℕ) := by rw [hf, mul_div_cancel₀ _ hd'.ne']
  unfold divideToEven
  dsimp only
  split
  · rename_i hup
    have htwice : d ≤ 2 * (n % d) := by
      rcases Bool.or_eq_true_iff.mp hup with hgt | htie
      · exact (of_decide_eq_true hgt).le
      · exact (beq_iff_eq.mp (Bool.and_eq_true_iff.mp htie).1).ge
    have hge : 1 / 2 ≤ f := by
      have : (d : ℚ) ≤ 2 * (n % d : ℕ) := by exact_mod_cast htwice
      nlinarith
    have habs : |((q + 1 : ℕ) : ℚ) - (q + f)| = 1 - f := by
      rw [abs_of_nonneg] <;> push_cast <;> linarith
    rw [← hq, habs]
    rcases hk with h | h <;> linarith
  · rename_i hdown
    have htwice : 2 * (n % d) ≤ d := by
      by_contra hgt
      exact hdown (Bool.or_eq_true_iff.mpr (.inl (decide_eq_true (by omega))))
    have hle : f ≤ 1 / 2 := by
      have : 2 * ((n % d : ℕ) : ℚ) ≤ d := by exact_mod_cast htwice
      nlinarith
    have habs : |(q : ℚ) - (q + f)| = f := by
      rw [abs_of_nonpos] <;> linarith
    rw [← hq, habs]
    rcases hk with h | h <;> linarith

/-! ## The exponent of a quotient -/

/-- Powers of two are positive, with negative exponents too. -/
lemma two_zpow_pos (e : ℤ) : (0 : ℚ) < 2 ^ e :=
  zpow_pos (by norm_num) e

/-- Powers of two grow with their exponents. -/
lemma two_zpow_le {e e' : ℤ} (h : e ≤ e') : (2 : ℚ) ^ e ≤ 2 ^ e' :=
  zpow_le_zpow_right₀ (by norm_num) h

/-- Powers of two are multiplied by adding their exponents. -/
lemma two_zpow_add (a b : ℤ) : (2 : ℚ) ^ (a + b) = 2 ^ a * 2 ^ b :=
  zpow_add₀ (by norm_num) a b

/-- A power of two whose exponent is not negative, as one of a natural number. -/
lemma two_zpow_toNat {e : ℤ} (h : 0 ≤ e) : (2 : ℚ) ^ e = 2 ^ e.toNat := by
  rw [← zpow_natCast, Int.toNat_of_nonneg h]

/-- A quotient, divided by a power of two. -/
lemma scaled_spec (num : ℕ) {den : ℕ} (hden : 0 < den) (e : ℤ) :
    0 < (scaled num den e).2 ∧
      ((scaled num den e).1 : ℚ) / (scaled num den e).2 = num / den / 2 ^ e := by
  unfold scaled
  split
  · rename_i he
    refine ⟨Nat.mul_pos hden (Nat.pow_pos (by norm_num)), ?_⟩
    rw [two_zpow_toNat he]
    push_cast
    rw [div_div]
    norm_cast
  · rename_i he
    refine ⟨hden, ?_⟩
    have hpower : (2 : ℚ) ^ e = (2 ^ (-e).toNat)⁻¹ := by
      rw [← two_zpow_toNat (by omega), zpow_neg, inv_inv]
    rw [hpower, div_inv_eq_mul]
    push_cast
    rw [mul_div_right_comm]
    norm_cast

/-- The whole part of a quotient is below a whole number exactly if the quotient is. -/
lemma div_lt_iff_lt (n : ℕ) {d : ℕ} (hd : 0 < d) (k : ℕ) : n / d < k ↔ (n : ℚ) / d < k := by
  have hd' : (0 : ℚ) < d := by exact_mod_cast hd
  rw [Nat.div_lt_iff_lt_mul hd, div_lt_iff₀ hd']
  exact_mod_cast Iff.rfl

/-- A natural number lies between the powers of two that its logarithm tells. -/
lemma two_zpow_log2_le {n : ℕ} (hn : 0 < n) :
    (2 : ℚ) ^ (n.log2 : ℤ) ≤ n ∧ (n : ℚ) < 2 ^ ((n.log2 : ℤ) + 1) := by
  constructor
  · rw [zpow_natCast]
    exact_mod_cast Nat.log2_self_le hn.ne'
  · have hlt : n < 2 ^ (n.log2 + 1) := Nat.lt_log2_self
    exact_mod_cast hlt

/-- **The exponent that is chosen for a quotient:** divided by that power of two, the quotient has at
most 53 bits before the point, and exactly 53 unless it is the least exponent.

**Proof sketch.** The numbers of binary digits give an estimate that is right or one too small. The
test decides between the two: with the estimate the quotient is below `2 ^ 53`, or with the next
exponent it has 53 bits. Then the least exponent is taken if that is greater. -/
lemma exponentFor_spec {num den : ℕ} (hnum : 0 < num) (hden : 0 < den) :
    (num : ℚ) / den < 2 ^ (precision : ℤ) * 2 ^ exponentFor num den ∧
      minExponent ≤ exponentFor num den ∧
      (exponentFor num den = minExponent ∨
        2 ^ ((precision : ℤ) - 1) * 2 ^ exponentFor num den ≤ (num : ℚ) / den) := by
  have hden' : (0 : ℚ) < den := by exact_mod_cast hden
  obtain ⟨hnum₁, hnum₂⟩ := two_zpow_log2_le hnum
  obtain ⟨hden₁, hden₂⟩ := two_zpow_log2_le hden
  set estimate : ℤ := (num.log2 : ℤ) - den.log2 - precision with hestimate
  -- the estimate is the exponent, or one less
  have hupper : (num : ℚ) / den < 2 ^ ((precision : ℤ) + (estimate + 1)) := by
    rw [div_lt_iff₀ hden']
    calc (num : ℚ)
        _ < 2 ^ ((num.log2 : ℤ) + 1) := hnum₂
        _ = 2 ^ ((precision : ℤ) + (estimate + 1)) * 2 ^ (den.log2 : ℤ) := by
          rw [← two_zpow_add]
          congr 1
          omega
        _ ≤ 2 ^ ((precision : ℤ) + (estimate + 1)) * den :=
          mul_le_mul_of_nonneg_left hden₁ (two_zpow_pos _).le
  have hlower : (2 : ℚ) ^ ((precision : ℤ) - 1 + estimate) ≤ num / den := by
    rw [le_div_iff₀ hden']
    calc (2 : ℚ) ^ ((precision : ℤ) - 1 + estimate) * den
        _ ≤ 2 ^ ((precision : ℤ) - 1 + estimate) * 2 ^ ((den.log2 : ℤ) + 1) :=
          mul_le_mul_of_nonneg_left hden₂.le (two_zpow_pos _).le
        _ = 2 ^ (num.log2 : ℤ) := by
          rw [← two_zpow_add]
          congr 1
          omega
        _ ≤ num := hnum₁
  obtain ⟨hd, hscaled⟩ := scaled_spec num hden estimate
  -- the test compares the quotient with the power of two of the estimate
  have htest : (scaled num den estimate).1 / (scaled num den estimate).2 < Nat.pow 2 precision ↔
      (num : ℚ) / den < 2 ^ ((precision : ℤ) + estimate) := by
    rw [div_lt_iff_lt _ hd, hscaled, div_lt_iff₀ (two_zpow_pos _), two_zpow_add]
    norm_cast
  obtain ⟨chosen, hchosen, hlt, hle⟩ : ∃ chosen, exponentFor num den = max minExponent chosen ∧
      (num : ℚ) / den < 2 ^ ((precision : ℤ) + chosen) ∧
        2 ^ ((precision : ℤ) - 1 + chosen) ≤ (num : ℚ) / den := by
    by_cases hbelow : (num : ℚ) / den < 2 ^ ((precision : ℤ) + estimate)
    · refine ⟨estimate, ?_, hbelow, hlower⟩
      rw [exponentFor, ← hestimate]
      dsimp only
      rw [if_pos (htest.mpr hbelow)]
    · refine ⟨estimate + 1, ?_, hupper, ?_⟩
      · rw [exponentFor, ← hestimate]
        dsimp only
        rw [if_neg (mt htest.mp hbelow)]
      · rw [show (precision : ℤ) - 1 + (estimate + 1) = precision + estimate by ring]
        exact not_lt.mp hbelow
  rw [hchosen, ← two_zpow_add, ← two_zpow_add]
  refine ⟨hlt.trans_le (two_zpow_le (by omega)), le_max_left _ _, ?_⟩
  rcases le_total chosen minExponent with hmin | hmin
  · exact .inl (max_eq_left hmin)
  · exact .inr (by rwa [max_eq_right hmin])

/-! ## Rounding -/

/-- A whole multiple of a power of two is nearest to a number, among the values of the format, if it
is among the multiples, and the number has as many bits as the format.

**Proof sketch.** A value of the format with a smaller exponent is less than the least number with
that many bits, which is a multiple of the power itself, so it is farther away. -/
lemma isNearest_of_multiple {v : ℚ} {s : ℕ} {e : ℤ} (hmin : minExponent ≤ e)
    (hupper : v < 2 ^ (precision : ℤ) * 2 ^ e)
    (hlower : e = minExponent ∨ 2 ^ ((precision : ℤ) - 1) * 2 ^ e ≤ v)
    (hs : ∀ k : ℤ, |(s : ℚ) - v / 2 ^ e| ≤ |(k : ℚ) - v / 2 ^ e|) :
    IsNearest (s * 2 ^ e) v := by
  have hpos := two_zpow_pos e
  have hmultiple : ∀ k : ℤ, |(s : ℚ) * 2 ^ e - v| ≤ |(k : ℚ) * 2 ^ e - v| := by
    intro k
    have hscale : ∀ t : ℚ, |t * 2 ^ e - v| = |t - v / 2 ^ e| * 2 ^ e := by
      intro t
      rw [← abs_of_pos hpos, ← abs_mul, abs_of_pos hpos, sub_mul, div_mul_cancel₀ _ hpos.ne']
    rw [hscale, hscale]
    exact mul_le_mul_of_nonneg_right (hs k) hpos.le
  refine ⟨?_, ?_⟩
  · have hbits : (s : ℚ) ≤ 2 ^ precision := by
      have hquotient : v / 2 ^ e < 2 ^ precision := by
        rw [div_lt_iff₀ hpos, ← zpow_natCast]
        exact hupper
      have hle := (le_abs_self _).trans (hs (2 ^ precision))
      push_cast at hle
      rw [abs_of_pos (by linarith)] at hle
      linarith
    have hbits' : s ≤ 2 ^ precision := by exact_mod_cast hbits
    rcases Nat.lt_or_eq_of_le hbits' with hlt | rfl
    · refine ⟨s, e, ?_, hmin, by norm_num⟩
      rw [Nat.abs_cast]
      exact_mod_cast hlt
    · refine ⟨1, precision + e, by decide, by omega, ?_⟩
      rw [two_zpow_add, zpow_natCast]
      push_cast
      ring
  · rintro y ⟨s', e', hs', he', rfl⟩
    rcases le_or_gt e e' with hle | hlt
    · -- the other value is a multiple too
      have hk : (s' : ℚ) * 2 ^ e' = ((s' * 2 ^ (e' - e).toNat : ℤ) : ℚ) * 2 ^ e := by
        push_cast
        rw [mul_assoc, ← two_zpow_toNat (by omega), ← two_zpow_add, sub_add_cancel]
      rw [hk]
      exact hmultiple _
    · have hfull : 2 ^ ((precision : ℤ) - 1) * 2 ^ e ≤ v := by
        rcases hlower with rfl | h
        · omega
        · exact h
      have hless : (s' : ℚ) * 2 ^ e' ≤ 2 ^ ((precision : ℤ) - 1) * 2 ^ e := by
        have hs'' : (s' : ℚ) ≤ 2 ^ precision := by exact_mod_cast (le_abs_self s').trans hs'.le
        calc (s' : ℚ) * 2 ^ e'
            _ ≤ 2 ^ precision * 2 ^ e' := mul_le_mul_of_nonneg_right hs'' (two_zpow_pos _).le
            _ ≤ 2 ^ precision * 2 ^ (e - 1) :=
              mul_le_mul_of_nonneg_left (two_zpow_le (by omega)) (by positivity)
            _ = 2 ^ ((precision : ℤ) - 1) * 2 ^ e := by
              rw [← zpow_natCast, ← two_zpow_add, ← two_zpow_add]
              congr 1
              ring
      have hbetween := hmultiple (2 ^ (precision - 1))
      have hpower : ((2 ^ (precision - 1) : ℤ) : ℚ) = 2 ^ ((precision : ℤ) - 1) := by
        norm_num [precision]
      rw [hpower, abs_of_nonpos (show 2 ^ ((precision : ℤ) - 1) * (2 : ℚ) ^ e - v ≤ 0 by linarith)]
        at hbetween
      have hfar := neg_le_abs ((s' : ℚ) * 2 ^ e' - v)
      linarith

/-- A number with its sign. -/
def signed (negative : Bool) (v : ℚ) : ℚ :=
  if negative then -v else v

/-- A sign can be put on a number before or after it is rounded. -/
lemma IsNearest.signed {x v : ℚ} (h : IsNearest x v) (negative : Bool) :
    IsNearest (signed negative x) (signed negative v) := by
  cases negative with
  | false => exact h
  | true => exact h.neg

/-- The value of a finite number is its significand times its power of two, with its sign. -/
lemma value?_finite (negative : Bool) (s : ℕ) (e : ℤ) :
    (finite negative s e).value? = some (signed negative (s * 2 ^ e)) := by
  cases negative <;> rfl

/-- A quotient is either too large, or what is found is its value rounded to the nearest multiple.

**Proof sketch.** By whether rounding up has filled the 53 bits, in which case the significand is
halved and the exponent is one more, and by whether the exponent is too large. -/
lemma ofQuotient_cases (negative : Bool) (num den : ℕ) :
    ofQuotient negative num den = .infinite negative ∨
      (ofQuotient negative num den).value? = some (signed negative
        (divideToEven (scaled num den (exponentFor num den)).1
          (scaled num den (exponentFor num den)).2 * 2 ^ exponentFor num den)) := by
  unfold ofQuotient
  dsimp only
  split_ifs with hfull hlarge hlarge
  · exact .inl rfl
  · refine .inr ?_
    rw [value?_finite, hfull]
    have hpower : (2 : ℚ) ^ (exponentFor num den + 1) = 2 ^ exponentFor num den * 2 := by
      rw [two_zpow_add, zpow_one]
    rw [hpower]
    congr 2
    have hdouble : Nat.pow 2 precision = Nat.pow 2 (precision - 1) * 2 := rfl
    rw [hdouble]
    push_cast
    ring
  · exact .inl rfl
  · exact .inr (value?_finite _ _ _)

/-- **A number that is found for a quotient is nearest to it.** -/
lemma isNearest_ofQuotient {negative : Bool} {num den : ℕ} (hnum : 0 < num) (hden : 0 < den) {x : ℚ}
    (h : (ofQuotient negative num den).value? = some x) :
    IsNearest x (signed negative (num / den)) := by
  rcases ofQuotient_cases negative num den with hinfinite | hvalue
  · rw [hinfinite] at h
    simp [value?] at h
  · obtain rfl := Option.some.inj (hvalue.symm.trans h)
    obtain ⟨hupper, hmin, hlower⟩ := exponentFor_spec hnum hden
    obtain ⟨hd, hscaled⟩ := scaled_spec num hden (exponentFor num den)
    refine (isNearest_of_multiple hmin hupper hlower fun k => ?_).signed negative
    rw [← hscaled]
    exact abs_divideToEven_sub_le _ hd k

/-- What is at most half the least positive value of the format is nearest to zero.

**Proof sketch.** Any value of the format is zero, or at least the least positive one in magnitude,
and so no nearer. -/
lemma isNearest_zero {v : ℚ} (h0 : 0 ≤ v) (hsmall : 2 * v ≤ 2 ^ minExponent) : IsNearest 0 v := by
  refine ⟨⟨0, 0, by decide, by decide, by simp⟩, ?_⟩
  rintro y ⟨s, e, -, he, rfl⟩
  rw [zero_sub, abs_neg, abs_of_nonneg h0]
  rcases eq_or_ne s 0 with rfl | hs
  · simp [abs_of_nonneg h0]
  · have hone : (1 : ℚ) ≤ |(s : ℚ)| := by exact_mod_cast Int.one_le_abs hs
    have hfar : (2 : ℚ) ^ minExponent ≤ |(s : ℚ) * 2 ^ e| := by
      rw [abs_mul, abs_of_pos (two_zpow_pos e)]
      calc (2 : ℚ) ^ minExponent
          _ ≤ 2 ^ e := two_zpow_le he
          _ ≤ |(s : ℚ)| * 2 ^ e := le_mul_of_one_le_left (two_zpow_pos e).le hone
    have hsub := abs_sub_abs_le_abs_sub ((s : ℚ) * 2 ^ e) v
    rw [abs_of_nonneg h0] at hsub
    linarith

/-- A negative power of ten is at most the same power of eight. -/
lemma ten_zpow_le {exponent : ℤ} (h : exponent ≤ 0) : (10 : ℚ) ^ exponent ≤ 2 ^ (3 * exponent) := by
  obtain ⟨k, rfl⟩ : ∃ k : ℕ, exponent = -k := ⟨exponent.natAbs, by omega⟩
  have height : (2 : ℚ) ^ (3 * -(k : ℤ)) = (8 ^ k)⁻¹ := by
    rw [mul_neg, zpow_neg, zpow_mul]
    norm_num
  rw [height, zpow_neg, zpow_natCast]
  exact inv_anti₀ (by positivity) (pow_le_pow_left₀ (by norm_num) (by norm_num) k)

/-- **A number that is found for a decimal is nearest to it.**

**Proof sketch.** Where the power of ten is computed, this is so for the quotient. Where it is not,
the answer is infinite, or the decimal is so small that zero is nearest. -/
lemma isNearest_ofDecimal {negative : Bool} {digits : ℕ} {exponent : ℤ} {x : ℚ}
    (h : (ofDecimal negative digits exponent).value? = some x) :
    IsNearest x (signed negative (digits * 10 ^ exponent)) := by
  unfold ofDecimal at h
  dsimp only at h
  split_ifs at h with hzero hwhole hlarge hsmall
  · subst hzero
    obtain rfl := Option.some.inj ((value?_finite _ _ _).symm.trans h)
    refine IsNearest.signed ?_ negative
    simpa using isNearest_zero le_rfl (by simpa using (two_zpow_pos minExponent).le)
  · simp [value?] at h
  · have hnum : 0 < digits * Nat.pow 10 exponent.toNat :=
      Nat.mul_pos (Nat.pos_of_ne_zero hzero) (Nat.pow_pos (by norm_num))
    have hvalue : ((digits * Nat.pow 10 exponent.toNat : ℕ) : ℚ) / (1 : ℕ) =
        digits * 10 ^ exponent := by
      rw [Nat.cast_one, div_one, Nat.cast_mul]
      congr 1
      have hpower : ((Nat.pow 10 exponent.toNat : ℕ) : ℚ) = 10 ^ exponent.toNat := by
        exact_mod_cast rfl
      rw [hpower, ← zpow_natCast, Int.toNat_of_nonneg hwhole]
    rw [← hvalue]
    exact isNearest_ofQuotient hnum Nat.one_pos h
  · obtain rfl := Option.some.inj ((value?_finite _ _ _).symm.trans h)
    refine IsNearest.signed ?_ negative
    have hdigits := (two_zpow_log2_le (Nat.pos_of_ne_zero hzero)).2
    have hten := ten_zpow_le (not_le.mp hwhole).le
    have hbound : (digits : ℚ) * 10 ^ exponent ≤ 2 ^ ((digits.log2 : ℤ) + 1 + 3 * exponent) := by
      rw [two_zpow_add]
      exact mul_le_mul hdigits.le hten (by positivity) (two_zpow_pos _).le
    have hhalf : 2 * (2 : ℚ) ^ ((digits.log2 : ℤ) + 1 + 3 * exponent) ≤ 2 ^ minExponent := by
      rw [← zpow_one_add₀ (by norm_num)]
      refine two_zpow_le ?_
      simp only [minExponent]
      omega
    simpa using isNearest_zero (by positivity) ((mul_le_mul_of_nonneg_left hbound (by norm_num)).trans
      hhalf)
  · have hden : 0 < Nat.pow 10 (-exponent).toNat := Nat.pow_pos (by norm_num)
    have hvalue : (digits : ℚ) / (Nat.pow 10 (-exponent).toNat : ℕ) = digits * 10 ^ exponent := by
      rw [div_eq_mul_inv]
      congr 1
      have hpower : ((Nat.pow 10 (-exponent).toNat : ℕ) : ℚ) = 10 ^ (-exponent).toNat := by
        exact_mod_cast rfl
      rw [hpower, ← zpow_natCast, Int.toNat_of_nonneg (by omega), zpow_neg, inv_inv]
    rw [← hvalue]
    exact isNearest_ofQuotient (Nat.pos_of_ne_zero hzero) hden h

/-- A quotient whose exponent is below the greatest one is rounded to a finite number. -/
lemma exists_finite_ofQuotient {negative : Bool} {num den : ℕ}
    (h : exponentFor num den < maxExponent) :
    ∃ s e, ofQuotient negative num den = .finite negative s e := by
  unfold ofQuotient
  dsimp only
  split_ifs with hfull hlarge hlarge
  · omega
  · exact ⟨_, _, rfl⟩
  · omega
  · exact ⟨_, _, rfl⟩

/-- A whole number that is not too large is no infinity.

**Proof sketch.** A number up to `2 ^ 53` has an exponent of at most one, far below the greatest
one. -/
lemma exists_finite_ofDecimal {n : ℕ} (hn : n ≤ 2 ^ precision) :
    ∃ s e, ofDecimal false n 0 = .finite false s e := by
  rcases Nat.eq_zero_or_pos n with rfl | hpos
  · exact ⟨0, 0, rfl⟩
  · have hlog : n.log2 ≤ precision :=
      (Nat.pow_le_pow_iff_right (by decide)).mp ((Nat.log2_self_le hpos.ne').trans hn)
    have hexponent : exponentFor n 1 ≤ 1 := by
      have hone : Nat.log2 1 = 0 := by decide
      rw [exponentFor, hone]
      dsimp only [minExponent]
      split <;> omega
    have hlarge : ¬ 1024 ≤ (n.log2 : ℤ) + 3 * 0 := by
      simp only [precision] at hlog
      omega
    have hone : n * Nat.pow 10 (0 : ℤ).toNat = n := Nat.mul_one n
    unfold ofDecimal
    dsimp only
    rw [if_neg hpos.ne', if_pos le_rfl, if_neg hlarge, hone]
    exact exists_finite_ofQuotient (hexponent.trans_lt (by decide))

/-- What is found for a decimal is a number. -/
lemma exists_value_of_ofDecimal (negative : Bool) (digits : ℕ) (exponent : ℤ) :
    (∃ sign, ofDecimal negative digits exponent = .infinite sign) ∨
      ∃ x, (ofDecimal negative digits exponent).value? = some x := by
  have hquotient : ∀ num den, (∃ sign, ofQuotient negative num den = .infinite sign) ∨
      ∃ x, (ofQuotient negative num den).value? = some x :=
    fun num den => (ofQuotient_cases negative num den).imp (fun h => ⟨_, h⟩) fun h => ⟨_, h⟩
  unfold ofDecimal
  dsimp only
  split_ifs
  · exact .inr ⟨_, value?_finite _ _ _⟩
  · exact .inl ⟨_, rfl⟩
  · exact hquotient _ _
  · exact .inr ⟨_, value?_finite _ _ _⟩
  · exact hquotient _ _

end Detab.Binary64
