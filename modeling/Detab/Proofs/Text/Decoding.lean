import Detab.Proofs.Text.Encoding
import Mathlib.Data.List.Basic
import Mathlib.Data.List.Induction
import Mathlib.Tactic.Common
import Mathlib.Tactic.Ring

set_option relaxedAutoImplicit false
set_option autoImplicit false

/-!
# Decoding and ASCII

A byte string may be malformed anywhere. Its lossy reading has one character for every piece, so
positions are shifted, but ASCII is not touched by this: an ASCII byte is a character wherever it
stands, and nothing else is shown as an ASCII character.

## Main definitions

* `Detab.Utf8.State.Sound` — a state in which a sequence can only end in a character beyond ASCII.

## Main results

* `Detab.Utf8.State.Sound.push` — the decoder is only ever in such a state.
* `Detab.Utf8.lossy_append_cons` — **an ASCII byte is read by itself,** whatever stands around it.
* `Detab.Utf8.exists_byte_of_mem_lossy` — **every ASCII character that is shown is such a byte.**
* `Detab.Utf8.isSuffix_lossy_iff` — **a byte string ends with an ASCII text exactly when its lossy
  reading does.**

## Design

An open sequence with its bounds on the next byte allows an interval of numbers. The interval is
beyond ASCII, and below the surrogates or above them. Each further byte cuts a part out of the
interval, so whatever the sequence ends in is a character beyond ASCII.
-/

namespace Detab.Utf8

variable {s : State} {b : UInt8} {p : Piece} {c : Char} {more value : Nat} {low high : UInt8}
  {seen bytes : Bytes} {lit : List Char}

/-! ## Pieces beyond ASCII -/

/-- A piece that is not shown as an ASCII character. -/
def Piece.IsBeyond (p : Piece) : Prop :=
  0x80 ≤ p.shown.toNat

/-- Whether a piece is beyond ASCII can be computed. -/
instance (p : Piece) : Decidable p.IsBeyond :=
  inferInstanceAs (Decidable (_ ≤ _))

/-- A malformed run is shown as U+FFFD. -/
lemma isBeyond_malformed (bytes : Bytes) : (Piece.malformed bytes).IsBeyond := by
  change 0x80 ≤ 0xFFFD
  decide

/-- At the end only a malformed run can be left. -/
lemma isBeyond_of_mem_close (h : p ∈ s.close) : p.IsBeyond := by
  cases s with
  | start => simp [State.close] at h
  | inside more low high value seen =>
    rw [List.mem_singleton.mp h]
    exact isBeyond_malformed seen

/-- The character of a number in one of the two ranges beyond ASCII. -/
lemma isBeyond_char {n : Nat} (hlow : 0x80 ≤ n)
    (hrange : n < 0xD800 ∨ 0xE000 ≤ n ∧ n < 0x110000) : (Piece.char (Char.ofNat n)).IsBeyond := by
  have hvalid : n.isValidChar := by
    unfold Nat.isValidChar
    omega
  unfold Piece.IsBeyond Piece.shown
  rwa [toNat_ofNat hvalid]

/-! ## Open sequences -/

/-- **A state in which a sequence can only end in a character beyond ASCII.** The numbers that can
still be spelled are characters, so they leave out the surrogates. -/
def State.Sound : State → Prop
  | .start => True
  | .inside more low high value _ =>
    0x80 ≤ low.toNat ∧ high.toNat ≤ 0xBF ∧
      0x80 ≤ (value * 0x40 + low.toNat % 0x40) * 0x40 ^ more ∧
      ((value * 0x40 + high.toNat % 0x40 + 1) * 0x40 ^ more ≤ 0xD800 ∨
        0xE000 ≤ (value * 0x40 + low.toNat % 0x40) * 0x40 ^ more ∧
          (value * 0x40 + high.toNat % 0x40 + 1) * 0x40 ^ more ≤ 0x110000)

/-- Whether a state is sound can be computed. -/
instance : (s : State) → Decidable s.Sound
  | .start => inferInstanceAs (Decidable True)
  | .inside .. => inferInstanceAs (Decidable (_ ∧ _))

/-- The decoder begins in a sound state, as no sequence is open. -/
lemma sound_start : State.start.Sound := trivial

/-- The character of an ASCII byte has its number. -/
lemma toNat_ofNat_of_lt (hb : b < 0x80) : (Char.ofNat b.toNat).toNat = b.toNat := by
  have hlt : b.toNat < 0x80 := UInt8.lt_iff_toNat_lt.mp hb
  exact toNat_ofNat (.inl (by omega))

/-- A byte that is read between two characters: an ASCII character, or no such character. -/
lemma sound_first_ofNat : ∀ n < 0x100, (State.first (UInt8.ofNat n)).1.Sound ∧
    (0x80 ≤ n → ∀ p ∈ (State.first (UInt8.ofNat n)).2, p.IsBeyond) := by
  decide +kernel

/-- A first byte leads to a sound state. The bounds on the second byte keep the surrogates out. -/
lemma sound_first (b : UInt8) : (State.first b).1.Sound := by
  have h := (sound_first_ofNat b.toNat b.toNat_lt).1
  rwa [UInt8.ofNat_toNat] at h

/-- A first byte that is not in ASCII completes no ASCII character. -/
lemma isBeyond_of_mem_first (hb : 0x80 ≤ b) (h : p ∈ (State.first b).2) : p.IsBeyond := by
  have hfirst := (sound_first_ofNat b.toNat b.toNat_lt).2 (UInt8.le_iff_toNat_le.mp hb)
  rw [UInt8.ofNat_toNat] at hfirst
  exact hfirst p h

/-- A byte is not lost: it completes a piece, or it opens a sequence. -/
lemma first_ne_nil (b : UInt8) : (State.first b).2 ++ (State.first b).1.close ≠ [] := by
  have h : ∀ n < 0x100, (State.first (UInt8.ofNat n)).2 ++
      (State.first (UInt8.ofNat n)).1.close ≠ [] := by
    decide +kernel
  have hfirst := h b.toNat b.toNat_lt
  rwa [UInt8.ofNat_toNat] at hfirst

/-- An ASCII byte between characters is a character by itself. -/
lemma first_of_lt (hb : b < 0x80) : State.first b = (.start, [.char (Char.ofNat b.toNat)]) :=
  if_pos hb

/-- What a byte does inside a sequence: it goes on with it, or it ends it and is read afresh. -/
lemma push_inside_eq (more : Nat) (low high : UInt8) (value : Nat) (seen : Bytes) (b : UInt8) :
    (State.inside more low high value seen).push b =
      if low ≤ b ∧ b ≤ high then
        match more with
        | 0 => (.start, [.char (Char.ofNat (value * 0x40 + b.toNat % 0x40))])
        | more + 1 =>
          (.inside more 0x80 0xBF (value * 0x40 + b.toNat % 0x40) (seen ++ [b]), [])
      else ((State.first b).1, .malformed seen :: (State.first b).2) := by
  by_cases h : low ≤ b ∧ b ≤ high
  · rw [if_pos h]
    exact if_pos (by simpa using h)
  · rw [if_neg h]
    exact if_neg (by simpa using h)

/-- Every byte shows up: it completes a piece, or it will when the bytes end. -/
lemma push_ne_nil (s : State) (b : UInt8) : (s.push b).2 ++ (s.push b).1.close ≠ [] := by
  cases s with
  | start => exact first_ne_nil b
  | inside more low high value seen =>
    rw [push_inside_eq]
    split
    · cases more <;> simp [State.close]
    · simp

namespace State.Sound

/-- A byte that fits leaves a number of the interval. -/
lemma between (h : (State.inside more low high value seen).Sound) (hlow : low ≤ b) (hhigh : b ≤ high) :
    value * 0x40 + low.toNat % 0x40 ≤ value * 0x40 + b.toNat % 0x40 ∧
      value * 0x40 + b.toNat % 0x40 ≤ value * 0x40 + high.toNat % 0x40 := by
  obtain ⟨hleast, hgreatest, -, -⟩ := h
  have hlow' := UInt8.le_iff_toNat_le.mp hlow
  have hhigh' := UInt8.le_iff_toNat_le.mp hhigh
  omega

/-- **The decoder is only ever in such a state.**

**Proof sketch.** By the cases of the decoder. A byte that fits narrows the interval of numbers that
can still be spelled, so it stays above ASCII and clear of the surrogates; any other byte begins
anew. -/
lemma push (h : s.Sound) (b : UInt8) : (s.push b).1.Sound := by
  cases s with
  | start => exact sound_first b
  | inside more low high value seen =>
    rw [push_inside_eq]
    split
    · rename_i hfits
      obtain ⟨hleast, hgreatest⟩ := h.between hfits.1 hfits.2
      obtain ⟨-, -, hascii, hrange⟩ := h
      cases more with
      | zero => trivial
      | succ more =>
        -- the new interval is a part of the old one
        have hlower : (value * 0x40 + low.toNat % 0x40) * 0x40 ^ (more + 1) ≤
            ((value * 0x40 + b.toNat % 0x40) * 0x40 + 0x80 % 0x40) * 0x40 ^ more := by
          calc (value * 0x40 + low.toNat % 0x40) * 0x40 ^ (more + 1)
              _ ≤ (value * 0x40 + b.toNat % 0x40) * 0x40 ^ (more + 1) :=
                Nat.mul_le_mul_right _ hleast
              _ = _ := by ring
        have hupper : ((value * 0x40 + b.toNat % 0x40) * 0x40 + 0xBF % 0x40 + 1) * 0x40 ^ more ≤
            (value * 0x40 + high.toNat % 0x40 + 1) * 0x40 ^ (more + 1) := by
          calc ((value * 0x40 + b.toNat % 0x40) * 0x40 + 0xBF % 0x40 + 1) * 0x40 ^ more
              _ = (value * 0x40 + b.toNat % 0x40 + 1) * 0x40 ^ (more + 1) := by ring
              _ ≤ _ := Nat.mul_le_mul_right _ (Nat.succ_le_succ hgreatest)
        refine ⟨le_rfl, le_rfl, hascii.trans hlower, ?_⟩
        exact hrange.imp hupper.trans fun ⟨h₁, h₂⟩ => ⟨h₁.trans hlower, hupper.trans h₂⟩
    · exact sound_first b

/-- An ASCII byte ends an open sequence and is a character by itself. -/
lemma push_of_lt (h : s.Sound) (hb : b < 0x80) :
    s.push b = (.start, s.close ++ [.char (Char.ofNat b.toNat)]) := by
  cases s with
  | start => exact first_of_lt hb
  | inside more low high value seen =>
    have hout : ¬ (low ≤ b ∧ b ≤ high) := by
      rintro ⟨hlow, -⟩
      have hlow' := UInt8.le_iff_toNat_le.mp hlow
      have hb' := UInt8.lt_iff_toNat_lt.mp hb
      exact absurd (Nat.le_trans h.1 hlow') (Nat.not_le.mpr hb')
    rw [push_inside_eq, if_neg hout, first_of_lt hb]
    rfl

/-- Another byte completes pieces beyond ASCII only.

**Proof sketch.** A byte that fits completes the number of a sound state, which is beyond ASCII. A
byte that does not fit completes a malformed piece, and begins anew. -/
lemma isBeyond_of_mem_push (h : s.Sound) (hb : 0x80 ≤ b) (hp : p ∈ (s.push b).2) : p.IsBeyond := by
  cases s with
  | start => exact isBeyond_of_mem_first hb hp
  | inside more low high value seen =>
    rw [push_inside_eq] at hp
    split at hp
    · rename_i hfits
      obtain ⟨hleast, hgreatest⟩ := h.between hfits.1 hfits.2
      obtain ⟨-, -, hascii, hrange⟩ := h
      cases more with
      | zero =>
        rw [List.mem_singleton.mp hp]
        rw [pow_zero, Nat.mul_one] at hascii hrange
        exact isBeyond_char (hascii.trans hleast) (by omega)
      | succ more => simp at hp
    · rcases List.mem_cons.mp hp with rfl | hp
      · exact isBeyond_malformed seen
      · exact isBeyond_of_mem_first hb hp

end State.Sound

/-! ## Byte strings -/

/-- Decoding one byte and then the rest. -/
lemma decodeFrom_cons (s : State) (b : UInt8) (rest : Bytes) :
    decodeFrom s (b :: rest) = (s.push b).2 ++ decodeFrom (s.push b).1 rest := rfl

/-- **An ASCII byte is read by itself,** whatever stands around it. -/
lemma decodeFrom_append_cons (h : s.Sound) (a : Bytes) (hb : b < 0x80) (rest : Bytes) :
    decodeFrom s (a ++ b :: rest) =
      decodeFrom s a ++ .char (Char.ofNat b.toNat) :: decodeFrom .start rest := by
  induction a generalizing s with
  | nil =>
    rw [List.nil_append, decodeFrom_cons, h.push_of_lt hb]
    exact List.append_assoc _ _ _
  | cons b' a ih => simp only [List.cons_append, decodeFrom_cons, ih (h.push b'), List.append_assoc]

/-- A piece of a byte string is beyond ASCII, or one of its ASCII bytes.

**Proof sketch.** Induction on the bytes. An ASCII byte closes what is open and is a piece by
itself; any other byte completes pieces beyond ASCII only. -/
lemma isBeyond_or_exists_byte (h : s.Sound) (hp : p ∈ decodeFrom s bytes) :
    p.IsBeyond ∨ ∃ b ∈ bytes, b < 0x80 ∧ p = .char (Char.ofNat b.toNat) := by
  induction bytes generalizing s with
  | nil => exact .inl (isBeyond_of_mem_close hp)
  | cons b bytes ih =>
    rw [decodeFrom_cons] at hp
    rcases List.mem_append.mp hp with hp | hp
    · by_cases hb : b < 0x80
      · rw [h.push_of_lt hb] at hp
        rcases List.mem_append.mp hp with hp | hp
        · exact .inl (isBeyond_of_mem_close hp)
        · exact .inr ⟨b, by simp, hb, List.mem_singleton.mp hp⟩
      · exact .inl (h.isBeyond_of_mem_push (UInt8.not_lt.mp hb) hp)
    · exact (ih (h.push b) hp).imp_right
        fun ⟨b', hb', hpiece⟩ => ⟨b', List.mem_cons_of_mem _ hb', hpiece⟩

/-- The last piece of a byte string that does not end in ASCII is beyond ASCII.

**Proof sketch.** Induction on the bytes before. The last byte shows up in some piece, and it
completes pieces beyond ASCII only. -/
lemma exists_last_of_le (h : s.Sound) (a : Bytes) (hb : 0x80 ≤ b) :
    ∃ front last, decodeFrom s (a ++ [b]) = front ++ [last] ∧ last.IsBeyond := by
  induction a generalizing s with
  | nil =>
    have hpieces : decodeFrom s [b] = (s.push b).2 ++ (s.push b).1.close := rfl
    obtain ⟨front, last, hlast⟩ :=
      (List.eq_nil_or_concat' _).resolve_left (push_ne_nil s b)
    refine ⟨front, last, hpieces.trans hlast, ?_⟩
    have hmem : last ∈ (s.push b).2 ++ (s.push b).1.close := by simp [hlast]
    rcases List.mem_append.mp hmem with hmem | hmem
    · exact h.isBeyond_of_mem_push hb hmem
    · exact isBeyond_of_mem_close hmem
  | cons b' a ih =>
    obtain ⟨front, last, hdecode, hlast⟩ := ih (h.push b')
    exact ⟨(s.push b').2 ++ front, last, by simp [decodeFrom_cons, hdecode], hlast⟩

/-- **An ASCII byte is read by itself,** also in the lossy reading. -/
lemma lossy_append_cons (a : Bytes) (hb : b < 0x80) (rest : Bytes) :
    lossy (a ++ b :: rest) = lossy a ++ Char.ofNat b.toNat :: lossy rest := by
  simp only [lossy, decode, decodeFrom_append_cons sound_start a hb rest, List.map_append, List.map_cons,
    Piece.shown]

/-- **Every ASCII character that is shown** is a byte of its own. -/
lemma exists_byte_of_mem_lossy (hc : c.toNat < 0x80) (h : c ∈ lossy bytes) :
    UInt8.ofNat c.toNat ∈ bytes := by
  obtain ⟨p, hp, rfl⟩ := List.mem_map.mp h
  rcases isBeyond_or_exists_byte sound_start hp with hbeyond | ⟨b, hb, hlt, rfl⟩
  · exact absurd hc (Nat.not_lt.mpr hbeyond)
  · change UInt8.ofNat (Char.ofNat b.toNat).toNat ∈ bytes
    rwa [toNat_ofNat_of_lt hlt, UInt8.ofNat_toNat]

/-! ## Endings -/

/-- A list with a last element is at the end of another one with a last element when both last
elements are the same and the front is at the end of the other front. -/
lemma concat_suffix_concat_iff {α : Type} {front tail : List α} {x y : α} :
    tail ++ [x] <:+ front ++ [y] ↔ x = y ∧ tail <:+ front := by
  rw [← List.reverse_prefix]
  simp [List.cons_prefix_cons]

/-- **A byte string ends with an ASCII text** exactly when its lossy reading does.

**Proof sketch.** Induction on the text from its end. The last byte is ASCII, and then it is the last
character by itself, or it is not, and then neither is the last character. -/
lemma isSuffix_lossy_iff (hlit : ∀ c ∈ lit, c.toNat < 0x80) :
    lit <:+ lossy bytes ↔ encode lit <:+ bytes := by
  induction lit using List.reverseRecOn generalizing bytes with
  | nil => simp [encode]
  | append_singleton lit c ih =>
    have hc : c.toNat < 0x80 := hlit c (by simp)
    have hnat : (UInt8.ofNat c.toNat).toNat = c.toNat := by
      rw [UInt8.toNat_ofNat', Nat.mod_eq_of_lt (by omega)]
    have hencode : encode (lit ++ [c]) = encode lit ++ [UInt8.ofNat c.toNat] := by
      simp [encode, utf8EncodeChar_of_lt hc]
    rw [hencode]
    rcases List.eq_nil_or_concat' bytes with rfl | ⟨front, b, rfl⟩
    · simp [lossy, decode, decodeFrom, State.close]
    rw [concat_suffix_concat_iff]
    by_cases hb : b < 0x80
    · have hlast : c = Char.ofNat b.toNat ↔ UInt8.ofNat c.toNat = b := by
        constructor
        · rintro rfl
          rw [toNat_ofNat_of_lt hb, UInt8.ofNat_toNat]
        · rintro rfl
          rw [hnat, Char.ofNat_toNat]
      have hread : lossy (front ++ [b]) = lossy front ++ [Char.ofNat b.toNat] :=
        lossy_append_cons front hb []
      rw [hread, concat_suffix_concat_iff, hlast, ih fun c hc => hlit c (List.mem_append_left _ hc)]
    · obtain ⟨pieces, last, hdecode, hlast⟩ :=
        exists_last_of_le sound_start front (UInt8.not_lt.mp hb)
      have hread : lossy (front ++ [b]) = pieces.map Piece.shown ++ [last.shown] := by
        rw [lossy, decode, hdecode, List.map_append]
        rfl
      rw [hread, concat_suffix_concat_iff]
      refine iff_of_false ?_ ?_
      · rintro ⟨rfl, -⟩
        exact absurd hc (Nat.not_lt.mpr hlast)
      · rintro ⟨rfl, -⟩
        exact hb (UInt8.lt_iff_toNat_lt.mpr (by rwa [hnat]))

end Detab.Utf8
