import Detab.Proofs.Expansion.Lines
import Detab.Proofs.Text.Pieces

set_option relaxedAutoImplicit false
set_option autoImplicit false

/-!
# Expansion and the characters of a text

Contents are expanded byte by byte and are never decoded. For text in UTF-8 this comes to the same as
an expansion character by character, since a tab is a byte that is part of no other character. This
holds of malformed contents as well, as long as there are spaces in the place of a tab: they end an
open sequence just as the tab did.

## Main results

* `Detab.Expansion.substitute_encode` — the expansion of an encoded text.
* `Detab.Expansion.decodeFrom_substitute` — **the pieces of an expansion,** with a width above zero.
* `Detab.Expansion.text_of_expand` — **the characters of an expansion** are those of the contents, with
  spaces for each tab.
-/

namespace Detab

/-! ## ASCII bytes and their pieces -/

namespace Utf8

variable {s : State} {b : UInt8} {bytes : Bytes}

/-- **An ASCII character is a piece** where its byte is, and nowhere else.

**Proof sketch.** From the left: a piece that is shown in ASCII is not beyond it, so it is one of
the ASCII bytes, and it is this one. From the right: an ASCII byte completes what is open, and is
then a piece by itself. -/
lemma char_mem_decodeFrom_iff (h : s.Sound) (hb : b < 0x80) :
    Piece.char (Char.ofNat b.toNat) ∈ decodeFrom s bytes ↔ b ∈ bytes := by
  constructor
  · intro hmem
    have hascii : (Piece.char (Char.ofNat b.toNat)).shown.toNat = b.toNat := toNat_ofNat_of_lt hb
    rcases isBeyond_or_exists_byte h hmem with hbeyond | ⟨b', hb', hlt, hpiece⟩
    · have hsmall : b.toNat < 0x80 := UInt8.lt_iff_toNat_lt.mp hb
      rw [Piece.IsBeyond, hascii] at hbeyond
      omega
    · have hsame : b.toNat = b'.toNat := by
        rw [← hascii, hpiece]
        exact toNat_ofNat_of_lt hlt
      rwa [UInt8.toNat_inj.mp hsame]
  · intro hmem
    obtain ⟨front, back, rfl⟩ := List.append_of_mem hmem
    rw [decodeFrom_append_cons h front hb]
    exact List.mem_append_right _ List.mem_cons_self

/-- A run of one ASCII byte, between characters, is decoded as a run of its character; the decoder
is then between characters again. -/
lemma decodeFrom_replicate (hb : b < 0x80) (n : Nat) (rest : Bytes) :
    decodeFrom .start (List.replicate n b ++ rest) =
      List.replicate n (.char (Char.ofNat b.toNat)) ++ decodeFrom .start rest := by
  induction n with
  | zero => rfl
  | succ n ih =>
    rw [List.replicate_succ, List.cons_append, decodeFrom_cons, State.push, first_of_lt hb,
      List.replicate_succ, List.cons_append]
    exact congrArg _ ih

/-- A run of characters in front of some pieces is part of the text, if the pieces have one. -/
lemma characters?_replicate (c : Char) (n : Nat) (rest : List Piece) :
    characters? (List.replicate n (.char c) ++ rest) =
      (characters? rest).map (List.replicate n c ++ ·) := by
  induction n with
  | zero => exact Option.map_id'.symm
  | succ n ih =>
    rw [List.replicate_succ, List.cons_append, characters?, ih, Option.map_map, List.replicate_succ]
    rfl

end Utf8

namespace Expansion

open Utf8

/-! ## Encoded text -/

variable {canReserve : Nat → Bool} {contents expanded : ByteArray} {width : Width} {w : Nat}
  {s : State} {bytes : Bytes}

/-- A tab is an ASCII byte, so it is never part of the encoding of another character. -/
lemma tab_lt : tab < 0x80 := by decide

/-- A space is an ASCII byte. -/
lemma space_lt : space < 0x80 := by decide

/-- No character but the tab has a tab in its encoding. -/
lemma eq_tab_of_mem_utf8EncodeChar {c : Char} (h : tab ∈ String.utf8EncodeChar c) : c = '\t' := by
  have hpieces : decodeFrom .start (String.utf8EncodeChar c) = [.char c] := by
    have hchar := decodeFrom_utf8EncodeChar c []
    rwa [List.append_nil] at hchar
  have hmem := (char_mem_decodeFrom_iff sound_start tab_lt).mpr h
  rw [hpieces, List.mem_singleton] at hmem
  exact (Piece.char.inj hmem).symm

/-- **The expansion of an encoded text** is the encoding of the text with its tabs expanded.

**Proof sketch.** Induction on the text. A tab is encoded by its one byte, and no other character
has this byte in its encoding. -/
lemma substitute_encode (w : Nat) (text : List Char) :
    substitute w (encode text) = encode (exchange '\t' ' ' w text) := by
  induction text with
  | nil => rfl
  | cons c text ih =>
    have hcons : encode (c :: text) = String.utf8EncodeChar c ++ encode text := List.flatMap_cons
    rw [hcons, substitute_append, ih]
    by_cases hc : c = '\t'
    · subst hc
      have htab : substitute w (String.utf8EncodeChar '\t') = encode (List.replicate w ' ') := by
        rw [encode, List.flatMap_replicate]
        exact (List.append_nil _).trans List.flatten_replicate_singleton.symm
      rw [htab, exchange_cons_self, encode, encode, encode, List.flatMap_append]
    · have hkept := substitute_of_notMem w fun h => hc (eq_tab_of_mem_utf8EncodeChar h)
      rw [hkept, exchange_cons_of_ne hc]
      exact List.flatMap_cons.symm

/-! ## Pieces -/

/-- Without a tab among the bytes there is none among the pieces. -/
lemma exchange_decodeFrom_of_notMem (h : s.Sound) (htab : tab ∉ bytes) :
    exchange (.char '\t') (.char ' ') w (decodeFrom s bytes) = decodeFrom s bytes :=
  exchange_of_notMem fun hmem => htab ((char_mem_decodeFrom_iff h tab_lt).mp hmem)

/-- **The pieces of an expansion,** with a width above zero, also when a sequence is open.

**Proof sketch.** Induction on the bytes. A tab ends an open sequence and is read by itself, and so is
the first of the spaces in its place. Any other byte completes the same pieces on both sides, and none
of them is a tab. -/
lemma decodeFrom_substitute (hw : 0 < w) (h : s.Sound) (bytes : Bytes) :
    decodeFrom s (substitute w bytes) =
      exchange (.char '\t') (.char ' ') w (decodeFrom s bytes) := by
  induction bytes generalizing s with
  | nil => exact (exchange_decodeFrom_of_notMem h List.not_mem_nil).symm
  | cons b bytes ih =>
    by_cases hb : b = tab
    · subst hb
      have htab : decodeFrom s (tab :: bytes) =
          decodeFrom s [] ++ .char '\t' :: decodeFrom .start bytes :=
        decodeFrom_append_cons h [] tab_lt bytes
      obtain ⟨n, rfl⟩ := Nat.exists_eq_add_one.mpr hw
      have hspaces : decodeFrom s (List.replicate (n + 1) space ++ substitute (n + 1) bytes) =
          decodeFrom s [] ++ List.replicate (n + 1) (.char ' ') ++
            decodeFrom .start (substitute (n + 1) bytes) := by
        have hfirst := decodeFrom_append_cons h [] space_lt
          (List.replicate n space ++ substitute (n + 1) bytes)
        rw [decodeFrom_replicate space_lt] at hfirst
        rw [List.replicate_succ, List.replicate_succ, List.append_assoc]
        exact hfirst
      rw [substitute_cons_tab, hspaces, ih sound_start, htab, exchange_append,
        exchange_decodeFrom_of_notMem h List.not_mem_nil, exchange_cons_self, List.append_assoc]
    · have hpieces : Piece.char '\t' ∉ (s.push b).2 := by
        intro hmem
        have hlone : Piece.char '\t' ∈ decodeFrom s [b] := List.mem_append_left _ hmem
        exact hb (List.mem_singleton.mp ((char_mem_decodeFrom_iff h tab_lt).mp hlone)).symm
      rw [substitute_cons_of_ne w hb, decodeFrom_cons, decodeFrom_cons, exchange_append,
        exchange_of_notMem hpieces, ih (h.push b)]

/-- **Substitution acts on the pieces of a byte string:** each tab among them becomes spaces, and
all other pieces, malformed ones too, are as they were. A width of zero is left out, because then
the bytes on both sides of a tab would come together. -/
lemma decode_substitute (hw : 0 < w) (bytes : Bytes) :
    decode (substitute w bytes) = exchange (.char '\t') (.char ' ') w (decode bytes) :=
  decodeFrom_substitute hw sound_start bytes

/-- Elements can be renamed before or after, if no other one gets the name of the old one. -/
lemma map_exchange {α β : Type} [DecidableEq α] [DecidableEq β] {old new : α} {f : α → β}
    (hf : ∀ x, f x = f old → x = old) (l : List α) :
    (exchange old new w l).map f = exchange (f old) (f new) w (l.map f) := by
  induction l with
  | nil => rfl
  | cons x l ih =>
    by_cases hx : x = old
    · subst hx
      rw [exchange_cons_self, List.map_append, List.map_replicate, ih, List.map_cons, exchange_cons_self]
    · have hne : f x ≠ f old := fun h => hx (hf x h)
      rw [exchange_cons_of_ne hx, List.map_cons, ih, List.map_cons, exchange_cons_of_ne hne]

/-- The same for the characters that are shown for the bytes. What is shown for a malformed piece is
not a tab, so no such piece is exchanged. -/
lemma lossy_substitute (hw : 0 < w) (bytes : Bytes) :
    lossy (substitute w bytes) = exchange '\t' ' ' w (lossy bytes) := by
  have hshown : ∀ p : Piece, p.shown = (Piece.char '\t').shown → p = .char '\t' := by
    intro p hp
    cases p with
    | char c => exact congrArg _ hp
    | malformed bytes =>
      have hother : '\uFFFD' ≠ '\t' := by decide
      exact absurd hp hother
  rw [lossy, decode_substitute hw, map_exchange hshown]
  rfl

/-- Exchanging the tabs among some pieces neither makes a text of what is none nor the other way
round; the text is exchanged in the same way. -/
lemma characters?_exchange (w : Nat) (pieces : List Piece) :
    characters? (exchange (.char '\t') (.char ' ') w pieces) =
      (characters? pieces).map (exchange '\t' ' ' w) := by
  induction pieces with
  | nil => rfl
  | cons p pieces ih =>
    by_cases hp : p = .char '\t'
    · subst hp
      have htext : (exchange '\t' ' ' w ∘ ('\t' :: ·)) =
          (List.replicate w ' ' ++ ·) ∘ exchange '\t' ' ' w := funext fun _ => exchange_cons_self
      rw [exchange_cons_self, characters?_replicate, ih, characters?, Option.map_map, Option.map_map,
        htext]
    · rw [exchange_cons_of_ne hp]
      cases p with
      | malformed bytes => rfl
      | char c =>
        have hc : c ≠ '\t' := fun h => hp (congrArg _ h)
        have htext : (exchange '\t' ' ' w ∘ (c :: ·)) = (c :: ·) ∘ exchange '\t' ' ' w :=
          funext fun _ => exchange_cons_of_ne hc
        rw [characters?, ih, characters?, Option.map_map, Option.map_map, htext]

/-- **The characters of an expansion.** The expansion of well-formed text is well formed, and its
characters are those of the text, with spaces for each tab. With a width above zero this is so for
the lossy reading of any contents, and the expansion is well formed exactly when the contents are. -/
theorem text_of_expand (h : expand canReserve contents width = .ok (some expanded)) :
    (∀ text, strict? (unpack contents) = some text →
      strict? (unpack expanded) = some (exchange '\t' ' ' width.toNat text)) ∧
    (0 < width →
      lossy (unpack expanded) = exchange '\t' ' ' width.toNat (lossy (unpack contents)) ∧
      ((strict? (unpack expanded)).isSome ↔ (strict? (unpack contents)).isSome)) := by
  obtain ⟨-, hexpanded⟩ := expand_eq_some h
  rw [hexpanded]
  refine ⟨fun text htext => ?_, fun hwidth => ?_⟩
  · rw [strict?_eq_some_iff] at htext ⊢
    rw [htext, substitute_encode]
  · have hw : 0 < width.toNat := UInt64.lt_iff_toNat_lt.mp hwidth
    refine ⟨lossy_substitute hw _, ?_⟩
    rw [strict?, decode_substitute hw, characters?_exchange, Option.isSome_map]
    rfl

/-- Text that loses its tabs to the width zero, and malformed contents in which a tab ends an open
sequence. -/
theorem text_of_expand_open :
    strict? (utf8 "né") = some (exchange '\t' ' ' 0 ['n', '\t', 'é', '\t']) ∧
      lossy [0xE2, 0x82, 0x20, 0x20, 0xC3, 0xA9] =
        exchange '\t' ' ' 2 (lossy [0xE2, 0x82, tab, 0xC3, 0xA9]) := by
  have hempty : expand Platform.standard.canReserve (pack (utf8 "n\té\t")) 0 =
      .ok (some (pack (utf8 "né"))) :=
    expand_eq_some_iff.mpr ⟨by decide, ⟨by decide, by decide⟩, by decide⟩
  have hopen : expand Platform.standard.canReserve (pack [0xE2, 0x82, tab, 0xC3, 0xA9]) 2 =
      .ok (some (pack [0xE2, 0x82, 0x20, 0x20, 0xC3, 0xA9])) :=
    expand_eq_some_iff.mpr ⟨by decide, ⟨by decide, by decide⟩, by decide⟩
  have htext : strict? (unpack (pack (utf8 "n\té\t"))) = some ['n', '\t', 'é', '\t'] := by
    decide +kernel
  exact ⟨(text_of_expand hempty).1 _ htext, ((text_of_expand hopen).2 (by decide)).1⟩

/-- With the width zero a sequence that a tab has cut in two is whole again. -/
example : strict? [0xC3, tab, 0xA9] = none ∧
    strict? (substitute 0 [0xC3, tab, 0xA9]) = some ['é'] := by
  decide +kernel

end Expansion

end Detab
