import Detab.Text.Utf8
import Mathlib.Tactic.Common

set_option relaxedAutoImplicit false
set_option autoImplicit false

/-!
# Encoded text is read again

The decoder is an automaton on bytes. This file runs it over the encoding of one character, of each of
the four lengths, and from that over the encoding of a text.

## Main results

* `Detab.Utf8.decodeFrom_utf8EncodeChar` — **an encoded character is one piece.**
* `Detab.Utf8.strict?_encode` — **an encoded text is read again.**
-/

namespace Detab.Utf8

variable {n more value : Nat} {low high : UInt8} {seen : Bytes}

/-- A code point that is valid is the code point of its character. -/
lemma toNat_ofNat (h : n.isValidChar) : (Char.ofNat n).toNat = n := by
  rw [Char.ofNat, dif_pos h]
  rfl

/-- An ASCII character is one byte. -/
lemma utf8EncodeChar_of_lt {c : Char} (hc : c.toNat < 0x80) :
    String.utf8EncodeChar c = [UInt8.ofNat c.toNat] :=
  if_pos (Nat.le_of_lt_succ hc)

/-- Reading a byte between characters, by its number. -/
lemma first_ofNat : ∀ n < 0x100, State.first (UInt8.ofNat n) =
    if n < 0x80 then (.start, [.char (Char.ofNat n)])
    else if 0xC2 ≤ n ∧ n ≤ 0xDF then (.inside 0 0x80 0xBF (n % 0x20) [UInt8.ofNat n], [])
    else if n = 0xE0 then (.inside 1 0xA0 0xBF 0 [UInt8.ofNat n], [])
    else if n = 0xED then (.inside 1 0x80 0x9F (n % 0x10) [UInt8.ofNat n], [])
    else if 0xE1 ≤ n ∧ n ≤ 0xEF then (.inside 1 0x80 0xBF (n % 0x10) [UInt8.ofNat n], [])
    else if n = 0xF0 then (.inside 2 0x90 0xBF 0 [UInt8.ofNat n], [])
    else if 0xF1 ≤ n ∧ n ≤ 0xF3 then (.inside 2 0x80 0xBF (n % 0x08) [UInt8.ofNat n], [])
    else if n = 0xF4 then (.inside 2 0x80 0x8F (n % 0x08) [UInt8.ofNat n], [])
    else (.start, [.malformed [UInt8.ofNat n]]) := by
  decide +kernel

/-- A byte that a sequence can go on with. -/
lemma push_inside (hn : n < 0x100) (hlow : low.toNat ≤ n) (hhigh : n ≤ high.toNat) :
    (State.inside more low high value seen).push (UInt8.ofNat n) =
      match more with
      | 0 => (.start, [.char (Char.ofNat (value * 0x40 + n % 0x40))])
      | more + 1 =>
        (.inside more 0x80 0xBF (value * 0x40 + n % 0x40) (seen ++ [UInt8.ofNat n]), []) := by
  have hnat : (UInt8.ofNat n).toNat = n := by
    rw [UInt8.toNat_ofNat', Nat.mod_eq_of_lt hn]
  have hbetween : (decide (low ≤ UInt8.ofNat n) && decide (UInt8.ofNat n ≤ high)) = true := by
    simp only [Bool.and_eq_true, decide_eq_true_eq, UInt8.le_iff_toNat_le, hnat]
    exact ⟨hlow, hhigh⟩
  cases more with
  | zero => exact (if_pos hbetween).trans (by simp only [hnat])
  | succ more => exact (if_pos hbetween).trans (by simp only [hnat])

/-- The last bytes of a sequence, once its second byte is known to fit. -/
lemma decodeFrom_inside_zero (hn : n < 0x100) (hlow : low.toNat ≤ n) (hhigh : n ≤ high.toNat)
    (rest : Bytes) :
    decodeFrom (.inside 0 low high value seen) (UInt8.ofNat n :: rest) =
      .char (Char.ofNat (value * 0x40 + n % 0x40)) :: decodeFrom .start rest := by
  rw [decodeFrom, push_inside hn hlow hhigh]
  rfl

/-- A byte within the bounds, inside an open sequence that is to have more, is added to it; the
bounds on the next byte are the ordinary ones. -/
lemma decodeFrom_inside_succ (hn : n < 0x100) (hlow : low.toNat ≤ n) (hhigh : n ≤ high.toNat)
    (rest : Bytes) :
    decodeFrom (.inside (more + 1) low high value seen) (UInt8.ofNat n :: rest) =
      decodeFrom (.inside more 0x80 0xBF (value * 0x40 + n % 0x40) (seen ++ [UInt8.ofNat n])) rest := by
  rw [decodeFrom, push_inside hn hlow hhigh]
  rfl

/-- A first byte of a sequence. -/
lemma decodeFrom_first {b : UInt8} {state : State} (h : State.first b = (state, [])) (rest : Bytes) :
    decodeFrom .start (b :: rest) = decodeFrom state rest := by
  rw [decodeFrom, State.push, h]
  rfl

/-! ## Sequences -/

section Sequences

variable {b : UInt8} {v : Nat}

/-- The bytes behind the first one hold six bits each. -/
lemma decodeFrom_two (hfirst : State.first b = (.inside 0 0x80 0xBF (v / 0x40) [b], []))
    (rest : Bytes) :
    decodeFrom .start (b :: UInt8.ofNat (v % 0x40 + 0x80) :: rest) =
      .char (Char.ofNat v) :: decodeFrom .start rest := by
  have hvalue : v / 0x40 * 0x40 + (v % 0x40 + 0x80) % 0x40 = v := by omega
  rw [decodeFrom_first hfirst, decodeFrom_inside_zero (by omega) (by change 0x80 ≤ _; omega)
    (by change _ ≤ 0xBF; omega), hvalue]

/-- The bounds on the second byte leave out what could be shorter, and the surrogates. -/
lemma decodeFrom_three (hfirst : State.first b = (.inside 1 low high (v / 0x1000) [b], []))
    (hlow : low.toNat ≤ v / 0x40 % 0x40 + 0x80) (hhigh : v / 0x40 % 0x40 + 0x80 ≤ high.toNat)
    (rest : Bytes) :
    decodeFrom .start (b :: UInt8.ofNat (v / 0x40 % 0x40 + 0x80) ::
      UInt8.ofNat (v % 0x40 + 0x80) :: rest) = .char (Char.ofNat v) :: decodeFrom .start rest := by
  have hvalue : (v / 0x1000 * 0x40 + (v / 0x40 % 0x40 + 0x80) % 0x40) * 0x40 +
      (v % 0x40 + 0x80) % 0x40 = v := by omega
  rw [decodeFrom_first hfirst, decodeFrom_inside_succ (by omega) hlow hhigh,
    decodeFrom_inside_zero (by omega) (by change 0x80 ≤ _; omega) (by change _ ≤ 0xBF; omega), hvalue]

/-- The bounds on the second byte leave out what could be shorter, and what is too large. -/
lemma decodeFrom_four (hfirst : State.first b = (.inside 2 low high (v / 0x40000) [b], []))
    (hlow : low.toNat ≤ v / 0x1000 % 0x40 + 0x80) (hhigh : v / 0x1000 % 0x40 + 0x80 ≤ high.toNat)
    (rest : Bytes) :
    decodeFrom .start (b :: UInt8.ofNat (v / 0x1000 % 0x40 + 0x80) ::
      UInt8.ofNat (v / 0x40 % 0x40 + 0x80) :: UInt8.ofNat (v % 0x40 + 0x80) :: rest) =
        .char (Char.ofNat v) :: decodeFrom .start rest := by
  have hvalue : ((v / 0x40000 * 0x40 + (v / 0x1000 % 0x40 + 0x80) % 0x40) * 0x40 +
      (v / 0x40 % 0x40 + 0x80) % 0x40) * 0x40 + (v % 0x40 + 0x80) % 0x40 = v := by omega
  rw [decodeFrom_first hfirst, decodeFrom_inside_succ (by omega) hlow hhigh,
    decodeFrom_inside_succ (by omega) (by change 0x80 ≤ _; omega) (by change _ ≤ 0xBF; omega),
    decodeFrom_inside_zero (by omega) (by change 0x80 ≤ _; omega) (by change _ ≤ 0xBF; omega), hvalue]

end Sequences

/-- **An encoded character is one piece.**

**Proof sketch.** By the length of the encoding. The first byte opens a sequence of this length,
with the bounds that keep it from being overlong, a surrogate or too large, and the other bytes are
within them. -/
lemma decodeFrom_utf8EncodeChar (c : Char) (rest : Bytes) :
    decodeFrom .start (String.utf8EncodeChar c ++ rest) = .char c :: decodeFrom .start rest := by
  have hc : Char.ofNat c.val.toNat = c := Char.ofNat_toNat c
  have hvalid : c.val.toNat.isValidChar := c.valid
  unfold String.utf8EncodeChar
  generalize c.val.toNat = v at hc hvalid
  subst hc
  unfold Nat.isValidChar at hvalid
  dsimp only
  split_ifs with h1 h2 h3
  · have hfirst : State.first (UInt8.ofNat v) = (.start, [.char (Char.ofNat v)]) := by
      rw [first_ofNat v (by omega), if_pos (by omega)]
    rw [List.singleton_append, decodeFrom, State.push, hfirst]
    rfl
  · refine decodeFrom_two ?_ rest
    rw [first_ofNat _ (by omega), if_neg (by omega), if_pos (by omega),
      show (v / 64 % 32 + 192) % 32 = v / 64 by omega]
  · have hfirst := first_ofNat (v / 4096 % 16 + 224) (by omega)
    rw [if_neg (by omega), if_neg (by omega)] at hfirst
    -- the bounds on the second byte depend on the first one
    split_ifs at hfirst with hlow hsurrogate hother
    · rw [show 0 = v / 0x1000 by omega] at hfirst
      exact decodeFrom_three hfirst (by change 0xA0 ≤ _; omega) (by change _ ≤ 0xBF; omega) rest
    · rw [show (v / 4096 % 16 + 224) % 0x10 = v / 0x1000 by omega] at hfirst
      exact decodeFrom_three hfirst (by change 0x80 ≤ _; omega) (by change _ ≤ 0x9F; omega) rest
    · rw [show (v / 4096 % 16 + 224) % 0x10 = v / 0x1000 by omega] at hfirst
      exact decodeFrom_three hfirst (by change 0x80 ≤ _; omega) (by change _ ≤ 0xBF; omega) rest
    all_goals omega
  · have hfirst := first_ofNat (v / 262144 % 8 + 240) (by omega)
    rw [if_neg (by omega), if_neg (by omega), if_neg (by omega), if_neg (by omega),
      if_neg (by omega)] at hfirst
    split_ifs at hfirst with hlow hmiddle hlarge
    · rw [show 0 = v / 0x40000 by omega] at hfirst
      exact decodeFrom_four hfirst (by change 0x90 ≤ _; omega) (by change _ ≤ 0xBF; omega) rest
    · rw [show (v / 262144 % 8 + 240) % 0x08 = v / 0x40000 by omega] at hfirst
      exact decodeFrom_four hfirst (by change 0x80 ≤ _; omega) (by change _ ≤ 0xBF; omega) rest
    · rw [show (v / 262144 % 8 + 240) % 0x08 = v / 0x40000 by omega] at hfirst
      exact decodeFrom_four hfirst (by change 0x80 ≤ _; omega) (by change _ ≤ 0x8F; omega) rest
    all_goals omega

/-! ## Texts -/

/-- **What is encoded is decoded as it was,** whatever comes behind it. -/
lemma decodeFrom_encode (text : List Char) (rest : Bytes) :
    decodeFrom .start (encode text ++ rest) = text.map .char ++ decodeFrom .start rest := by
  induction text with
  | nil => rfl
  | cons c text ih =>
    rw [encode, List.flatMap_cons, List.append_assoc, decodeFrom_utf8EncodeChar]
    exact congrArg (Piece.char c :: ·) ih

/-- Pieces that are characters make a text of these characters. -/
lemma characters?_map (text : List Char) : characters? (text.map .char) = some text := by
  induction text with
  | nil => rfl
  | cons c text ih => rw [List.map_cons, characters?, ih, Option.map_some]

/-- **An encoded text is read again.** -/
lemma strict?_encode (text : List Char) : strict? (encode text) = some text := by
  have hpieces : decode (encode text) = text.map .char := by
    have h := decodeFrom_encode text []
    rw [List.append_nil] at h
    exact h.trans (List.append_nil _)
  rw [strict?, hpieces, characters?_map]

end Detab.Utf8
