import Detab.Proofs.Text.Decoding

set_option relaxedAutoImplicit false
set_option autoImplicit false

/-!
# Nothing is lost in decoding

The pieces of a byte string are its characters and its malformed runs. Their bytes in a row are the
byte string again, so a byte string without malformed runs is the encoding of its characters.

## Main definitions

* `Detab.Utf8.State.seen` — the bytes of the open sequence.
* `Detab.Utf8.Completes`, `Detab.Utf8.State.Sure` — a sequence that is the encoding of the character
  that it ends in, however it goes on.

## Main results

* `Detab.Utf8.State.sure_first` — every sequence that is opened is such a sequence.
* `Detab.Utf8.flatMap_bytes_decode` — **the bytes of the pieces are the byte string.**
* `Detab.Utf8.strict?_eq_some_iff` — **the strict reading is the inverse of encoding.**

## Design

The character of an open sequence is only known at its end. What is said of the sequence before is that
every byte that fits leads to a sequence of which the same can be said. The bounds on the second byte
are there for this: a form that is too long would be decoded to a character with another encoding.
-/

namespace Detab.Utf8

variable {s : State} {b low high : UInt8} {v : Nat} {bytes : Bytes} {text : List Char}

/-- The encoding of a character, by its number. -/
lemma utf8EncodeChar_ofNat (hv : v.isValidChar) :
    String.utf8EncodeChar (Char.ofNat v) =
      if v ≤ 0x7F then [UInt8.ofNat v]
      else if v ≤ 0x7FF then [UInt8.ofNat (v / 0x40 % 0x20 + 0xC0), UInt8.ofNat (v % 0x40 + 0x80)]
      else if v ≤ 0xFFFF then
        [UInt8.ofNat (v / 0x1000 % 0x10 + 0xE0), UInt8.ofNat (v / 0x40 % 0x40 + 0x80),
          UInt8.ofNat (v % 0x40 + 0x80)]
      else
        [UInt8.ofNat (v / 0x40000 % 0x08 + 0xF0), UInt8.ofNat (v / 0x1000 % 0x40 + 0x80),
          UInt8.ofNat (v / 0x40 % 0x40 + 0x80), UInt8.ofNat (v % 0x40 + 0x80)] := by
  have hvalue : (Char.ofNat v).val.toNat = v := toNat_ofNat hv
  unfold String.utf8EncodeChar
  rw [hvalue]

/-! ## Open sequences -/

/-- The bytes of the open sequence. -/
def State.seen : State → Bytes
  | .start => []
  | .inside _ _ _ _ seen => seen

/-- **A sequence that is the encoding of the character that it ends in,** however it goes on. -/
def Completes : (more : Nat) → (low high : UInt8) → (value : Nat) → (seen : Bytes) → Prop
  | 0, low, high, value, seen => ∀ b, low ≤ b → b ≤ high →
      String.utf8EncodeChar (Char.ofNat (value * 0x40 + b.toNat % 0x40)) = seen ++ [b]
  | more + 1, low, high, value, seen => ∀ b, low ≤ b → b ≤ high →
      Completes more 0x80 0xBF (value * 0x40 + b.toNat % 0x40) (seen ++ [b])

/-- A state in which the open sequence, if there is one, is such a sequence. -/
def State.Sure : State → Prop
  | .start => True
  | .inside more low high value seen => Completes more low high value seen

/-- A byte is fixed by the number that it stands for. -/
lemma ofNat_eq_of_toNat_eq {n : Nat} (h : b.toNat = n) : UInt8.ofNat n = b := by
  rw [← h, UInt8.ofNat_toNat]

/-- A first byte for two bytes opens a sequence that is the encoding of the character that it ends
in. -/
lemma completes_two (n : Nat) (hlow : 0xC2 ≤ n) (hhigh : n ≤ 0xDF) :
    Completes 0 0x80 0xBF (n % 0x20) [UInt8.ofNat n] := by
  intro b hb hb'
  have hleast : 0x80 ≤ b.toNat := UInt8.le_iff_toNat_le.mp hb
  have hgreatest : b.toNat ≤ 0xBF := UInt8.le_iff_toNat_le.mp hb'
  have hlast : b.toNat = (n % 0x20 * 0x40 + b.toNat % 0x40) % 0x40 + 0x80 := by omega
  have hfirst : (n % 0x20 * 0x40 + b.toNat % 0x40) / 0x40 % 0x20 + 0xC0 = n := by omega
  rw [utf8EncodeChar_ofNat (.inl (by omega)), if_neg (by omega), if_pos (by omega), hfirst,
    ofNat_eq_of_toNat_eq hlast]
  rfl

/-- The bounds on the second byte leave out what could be shorter, and the surrogates.

**Proof sketch.** The number that is spelled is a character, by the bounds, and its encoding has
three bytes. Each of them is computed back from the number. -/
lemma completes_three (n : Nat) (hn : 0xE0 ≤ n) (hn' : n ≤ 0xEF) (hlow : 0x80 ≤ low.toNat)
    (hhigh : high.toNat ≤ 0xBF) (hleast : 0x20 ≤ n % 0x10 * 0x40 + low.toNat % 0x40)
    (hvalid : n % 0x10 * 0x40 + high.toNat % 0x40 < 0x360 ∨
      0x380 ≤ n % 0x10 * 0x40 + low.toNat % 0x40) :
    Completes 1 low high (n % 0x10) [UInt8.ofNat n] := by
  intro b hb hb' c hc hc'
  have hb : low.toNat ≤ b.toNat := UInt8.le_iff_toNat_le.mp hb
  have hb' : b.toNat ≤ high.toNat := UInt8.le_iff_toNat_le.mp hb'
  have hc : 0x80 ≤ c.toNat := UInt8.le_iff_toNat_le.mp hc
  have hc' : c.toNat ≤ 0xBF := UInt8.le_iff_toNat_le.mp hc'
  set v := (n % 0x10 * 0x40 + b.toNat % 0x40) * 0x40 + c.toNat % 0x40 with hv
  have hvalidChar : v.isValidChar := by
    unfold Nat.isValidChar
    omega
  have hfirst : v / 0x1000 % 0x10 + 0xE0 = n := by omega
  have hsecond : b.toNat = v / 0x40 % 0x40 + 0x80 := by omega
  have hlast : c.toNat = v % 0x40 + 0x80 := by omega
  rw [utf8EncodeChar_ofNat hvalidChar, if_neg (by omega), if_neg (by omega), if_pos (by omega), hfirst,
    ofNat_eq_of_toNat_eq hsecond, ofNat_eq_of_toNat_eq hlast]
  rfl

/-- The bounds on the second byte leave out what could be shorter, and what is too large.

**Proof sketch.** As for three bytes, with one more. -/
lemma completes_four (n : Nat) (hn : 0xF0 ≤ n) (hn' : n ≤ 0xF4) (hlow : 0x80 ≤ low.toNat)
    (hhigh : high.toNat ≤ 0xBF) (hleast : 0x10 ≤ n % 0x08 * 0x40 + low.toNat % 0x40)
    (hvalid : n % 0x08 * 0x40 + high.toNat % 0x40 < 0x110) :
    Completes 2 low high (n % 0x08) [UInt8.ofNat n] := by
  intro b hb hb' c hc hc' d hd hd'
  have hb : low.toNat ≤ b.toNat := UInt8.le_iff_toNat_le.mp hb
  have hb' : b.toNat ≤ high.toNat := UInt8.le_iff_toNat_le.mp hb'
  have hc : 0x80 ≤ c.toNat := UInt8.le_iff_toNat_le.mp hc
  have hc' : c.toNat ≤ 0xBF := UInt8.le_iff_toNat_le.mp hc'
  have hd : 0x80 ≤ d.toNat := UInt8.le_iff_toNat_le.mp hd
  have hd' : d.toNat ≤ 0xBF := UInt8.le_iff_toNat_le.mp hd'
  set v := ((n % 0x08 * 0x40 + b.toNat % 0x40) * 0x40 + c.toNat % 0x40) * 0x40 + d.toNat % 0x40 with hv
  have hvalidChar : v.isValidChar := .inr ⟨by omega, by omega⟩
  have hfirst : v / 0x40000 % 0x08 + 0xF0 = n := by omega
  have hsecond : b.toNat = v / 0x1000 % 0x40 + 0x80 := by omega
  have hthird : c.toNat = v / 0x40 % 0x40 + 0x80 := by omega
  have hlast : d.toNat = v % 0x40 + 0x80 := by omega
  rw [utf8EncodeChar_ofNat hvalidChar, if_neg (by omega), if_neg (by omega), if_neg (by omega), hfirst,
    ofNat_eq_of_toNat_eq hsecond, ofNat_eq_of_toNat_eq hthird, ofNat_eq_of_toNat_eq hlast]
  rfl

namespace State

/-- **Every sequence that is opened** is the encoding of the character that it ends in.

**Proof sketch.** By the ranges of first bytes, each with its bounds on the second byte. -/
lemma sure_first (b : UInt8) : (State.first b).1.Sure := by
  suffices h : ∀ n < 0x100, (State.first (UInt8.ofNat n)).1.Sure by
    have hfirst := h b.toNat b.toNat_lt
    rwa [UInt8.ofNat_toNat] at hfirst
  intro n hn
  rw [first_ofNat n hn]
  split_ifs with hascii htwo he0 hed hthree hf0 hfour hf4 <;> dsimp only [Sure]
  · exact completes_two n htwo.1 htwo.2
  · subst he0
    exact completes_three 0xE0 (by decide) (by decide) (by decide) (by decide) (by decide) (by decide)
  · subst hed
    exact completes_three 0xED (by decide) (by decide) (by decide) (by decide) (by decide) (by decide)
  · exact completes_three n (by omega) (by omega) (by decide) (by decide) (by omega) (by omega)
  · subst hf0
    exact completes_four 0xF0 (by decide) (by decide) (by decide) (by decide) (by decide) (by decide)
  · exact completes_four n (by omega) (by omega) (by decide) (by decide) (by omega) (by omega)
  · subst hf4
    exact completes_four 0xF4 (by decide) (by decide) (by decide) (by decide) (by decide) (by decide)

/-- Every byte leads from such a state to such a state, by the cases of the decoder. -/
lemma Sure.push (h : s.Sure) (b : UInt8) : (s.push b).1.Sure := by
  cases s with
  | start => exact sure_first b
  | inside more low high value seen =>
    rw [push_inside_eq]
    split
    · rename_i hfits
      cases more with
      | zero => trivial
      | succ more => exact h b hfits.1 hfits.2
    · exact sure_first b

/-- The pieces of a first byte, together with the sequence that it opens, hold this byte and no
other. -/
lemma flatMap_bytes_first (b : UInt8) :
    (State.first b).2.flatMap Piece.bytes ++ (State.first b).1.seen = [b] := by
  have h : ∀ n < 0x100, (State.first (UInt8.ofNat n)).2.flatMap Piece.bytes ++
      (State.first (UInt8.ofNat n)).1.seen = [UInt8.ofNat n] := by
    decide +kernel
  have hfirst := h b.toNat b.toNat_lt
  rwa [UInt8.ofNat_toNat] at hfirst

/-- **A byte is in a piece, or in the sequence that is open after it.** -/
lemma Sure.flatMap_bytes_push (h : s.Sure) (b : UInt8) :
    (s.push b).2.flatMap Piece.bytes ++ (s.push b).1.seen = s.seen ++ [b] := by
  cases s with
  | start => exact flatMap_bytes_first b
  | inside more low high value seen =>
    rw [push_inside_eq]
    split
    · rename_i hfits
      cases more with
      | zero =>
        simp [Piece.bytes, State.seen, h b hfits.1 hfits.2]
      | succ more => rfl
    · rw [List.flatMap_cons, List.append_assoc, flatMap_bytes_first]
      rfl

end State

/-! ## Byte strings -/

/-- **No byte is lost in decoding:** the pieces hold the bytes of the open sequence and then all
others, in order. -/
lemma flatMap_bytes_decodeFrom (h : s.Sure) (bytes : Bytes) :
    (decodeFrom s bytes).flatMap Piece.bytes = s.seen ++ bytes := by
  induction bytes generalizing s with
  | nil => cases s <;> simp [decodeFrom, State.close, State.seen, Piece.bytes]
  | cons b bytes ih =>
    rw [decodeFrom_cons, List.flatMap_append, ih (h.push b), ← List.append_assoc,
      h.flatMap_bytes_push b, List.append_assoc, List.singleton_append]

/-- **The bytes of the pieces are the byte string.** -/
lemma flatMap_bytes_decode (bytes : Bytes) : (decode bytes).flatMap Piece.bytes = bytes := by
  have hstart : State.start.Sure := trivial
  exact flatMap_bytes_decodeFrom hstart bytes

/-- Pieces that make a text are the characters of this text. -/
lemma eq_map_of_characters? {pieces : List Piece} (h : characters? pieces = some text) :
    pieces = text.map .char := by
  fun_induction characters? pieces generalizing text with
  | case1 =>
    obtain rfl := Option.some.inj h
    rfl
  | case2 c rest ih =>
    obtain ⟨tail, htail, rfl⟩ := Option.map_eq_some_iff.mp h
    rw [ih htail, List.map_cons]
  | case3 => simp at h

/-- **The strict reading is the inverse of encoding:** what can be read is the encoding of the text that
is read. -/
lemma strict?_eq_some_iff : strict? bytes = some text ↔ bytes = encode text := by
  constructor
  · intro h
    rw [← flatMap_bytes_decode bytes, eq_map_of_characters? h, List.flatMap_map]
    rfl
  · rintro rfl
    exact strict?_encode text

end Detab.Utf8
