import Detab.Config.Basic
import Detab.Proofs.Glob.Matching
import Detab.Proofs.Glob.Spelling
import Detab.Proofs.Text.Decoding
import Mathlib.Data.List.Basic
import Mathlib.Tactic.Common

set_option relaxedAutoImplicit false
set_option autoImplicit false

/-!
# Patterns for an ending

A star and a text behind it is the pattern of most runs: it selects the names that end with the text.
A name is matched by its lossy reading, in which broken sequences have been replaced, and a pattern
only sees this reading. For an ending in ASCII it makes no difference: the name is selected exactly
when its bytes end with the bytes of the text.

## Main definitions

* `Detab.Glob.IsPlain` — a character that stands for itself in a pattern.
* `Detab.Pattern.endingWith` — the pattern of a star and a plain text.

## Main results

* `Detab.Glob.spells_map_literal` — a plain text spells its characters.
* `Detab.Pattern.matches_endingWith_iff` — a star and a plain text match the texts with this ending.
* `Detab.Pattern.matches_iff_bytes_end` — **an ASCII ending is looked for among the bytes of a name.**
-/

namespace Detab

variable {before : Option Char} {lit name : List Char} {later : List Glob.Token}

namespace Glob

/-- A character that stands for itself in a pattern, wherever it is: all but the three that open
another token. -/
def IsPlain (c : Char) : Prop :=
  c ≠ '*' ∧ c ≠ '?' ∧ c ≠ '['

/-- Whether a character stands for itself can be computed. -/
instance (c : Char) : Decidable (IsPlain c) :=
  inferInstanceAs (Decidable (_ ∧ _))

/-- A plain text spells its characters. -/
lemma spells_map_literal (h : ∀ c ∈ lit, IsPlain c) : Spells before lit (lit.map .literal) := by
  induction lit generalizing before with
  | nil => exact .done
  | cons c lit ih =>
    obtain ⟨hstar, hany, hset⟩ := h c List.mem_cons_self
    have hspelled : (Token.literal c).SpelledBy before [c] lit := ⟨rfl, hany, hstar, hset⟩
    exact .token hspelled (ih fun c hc => h c (List.mem_cons_of_mem _ hc))

/-- A star in front of a plain text is not part of two stars. -/
lemma tokens_star_cons (h : ∀ c ∈ lit, IsPlain c) :
    Glob.tokens ('*' :: lit) = .ok (.run :: lit.map .literal) := by
  have hhead : lit.head? ≠ some '*' := fun hhead => (h '*' (List.mem_of_head? hhead)).1 rfl
  have hspelled : Token.run.SpelledBy none ['*'] lit := ⟨rfl, hhead⟩
  exact tokens_eq_ok_iff.mpr (.token hspelled (spells_map_literal h))

/-- Tokens for single characters admit the text that they spell, and nothing else. -/
lemma admits_map_literal_iff : admits (lit.map .literal) name = true ↔ name = lit := by
  induction lit generalizing name with
  | nil => exact admits_nil_iff
  | cons c lit ih =>
    have hsingle : (Token.literal c).IsSingle := ⟨nofun, nofun⟩
    cases name with
    | nil => simp [admits_single_nil hsingle]
    | cons d name =>
      rw [List.map_cons, admits_single_cons hsingle, Bool.and_eq_true, ih, List.cons.injEq]
      exact and_congr_left fun _ => beq_iff_eq

end Glob

namespace Pattern

/-- **The pattern of a star and a plain text.** -/
def endingWith (lit : String) (h : ∀ c ∈ lit.toList, Glob.IsPlain c) : Pattern where
  text := "*" ++ lit
  tokens := .run :: lit.toList.map .literal
  read := by
    rw [String.toList_append]
    exact Glob.tokens_star_cons h

/-- A star and a plain text match the texts with this ending. -/
lemma matches_endingWith_iff {lit : String} (h : ∀ c ∈ lit.toList, Glob.IsPlain c) :
    (endingWith lit h).matches name = true ↔ lit.toList <:+ name := by
  change Glob.admits (.run :: lit.toList.map .literal) name = true ↔ _
  simp only [Glob.admits_run_iff, Glob.admits_map_literal_iff, exists_eq_right]

/-- No character of the default suffix opens another token. -/
lemma isPlain_java : ∀ c ∈ ".java".toList, Glob.IsPlain c :=
  List.forall_iff_forall_mem.mp (by decide)

/-- The default suffix is in ASCII. -/
lemma isAscii_java : ∀ c ∈ ".java".toList, c.toNat < 0x80 :=
  List.forall_iff_forall_mem.mp (by decide)

/-- The default pattern is the one for names that end in the default suffix. -/
lemma defaultPattern_eq : Config.defaultPattern = endingWith ".java" isPlain_java :=
  rfl

/-- **An ASCII ending is looked for among the bytes of a name,** whether the name is text or not:

* a star in front of such a text is a pattern, and it matches the names whose bytes end with the bytes
  of the text;
* so the standard pattern matches the names that end with the bytes of `.java`;
* a star alone matches every name.

**Proof sketch.** A star and plain characters spell a run and literals, which match the names that
end with the text. For ASCII the end of the characters is the end of the bytes, also in a name that
is no text, by `Utf8.isSuffix_lossy_iff`. -/
theorem matches_iff_bytes_end {lit : String} (name : Bytes)
    (hplain : ∀ c ∈ lit.toList, Glob.IsPlain c)
    (hascii : ∀ c ∈ lit.toList, c.toNat < 0x80) :
    (∃ pattern, Pattern.ofText ("*" ++ lit) = .ok pattern ∧
      (pattern.matches (Utf8.lossy name) = true ↔ utf8 lit <:+ name)) ∧
      (Config.standard.pattern.matches (Utf8.lossy name) = true ↔ utf8 ".java" <:+ name) ∧
      ∃ pattern, Pattern.ofText "*" = .ok pattern ∧ pattern.matches (Utf8.lossy name) = true := by
  refine ⟨⟨endingWith lit hplain, ofText_eq_ok_iff.mpr rfl, ?_⟩, ?_,
    endingWith "" (by simp), ofText_eq_ok_iff.mpr rfl, ?_⟩
  · rw [matches_endingWith_iff, Utf8.isSuffix_lossy_iff hascii]
    rfl
  · change Config.defaultPattern.matches _ = true ↔ _
    rw [defaultPattern_eq, matches_endingWith_iff, Utf8.isSuffix_lossy_iff isAscii_java]
    rfl
  · exact (matches_endingWith_iff _).mpr List.nil_suffix

/-- The ending `a.b` of a name in which a sequence breaks off just before it. -/
theorem matches_iff_bytes_end_truncated :
    (∀ c ∈ "a.b".toList, Glob.IsPlain c) ∧ (∀ c ∈ "a.b".toList, c.toNat < 0x80) ∧
      ∃ pattern, Pattern.ofText "*a.b" = .ok pattern ∧
        pattern.matches (Utf8.lossy [0xC3, 0xE2, 0x82, 0x61, 0x2E, 0x62]) = true := by
  have hplain : ∀ c ∈ "a.b".toList, Glob.IsPlain c :=
    List.forall_iff_forall_mem.mp (by decide)
  have hascii : ∀ c ∈ "a.b".toList, c.toNat < 0x80 :=
    List.forall_iff_forall_mem.mp (by decide)
  obtain ⟨⟨pattern, hpattern, hmatches⟩, -⟩ :=
    matches_iff_bytes_end [0xC3, 0xE2, 0x82, 0x61, 0x2E, 0x62] hplain hascii
  exact ⟨hplain, hascii, pattern, hpattern, hmatches.mpr (by decide)⟩

end Pattern

end Detab
