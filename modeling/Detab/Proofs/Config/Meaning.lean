import Detab.Proofs.Config.Width
import Detab.Proofs.Glob.Spelling
import Mathlib.Data.List.Perm.Basic

set_option relaxedAutoImplicit false
set_option autoImplicit false

/-!
# What an object of settings means

Each key has to name a setting, and no setting may be named twice. This file shows that nothing else
counts but what the values give: neither where a member stands, nor whether a setting that is null is
there at all.

## Main definitions

* `Detab.Layer.GivesPattern`, `Detab.Layer.GivesWidth` — what a value gives.
* `Detab.Layer.Means` — **the settings that some entries mean,** if they mean any.

## Main results

* `Detab.Layer.readPattern_eq_ok_iff`, `Detab.Layer.readWidth_eq_ok_iff` — a value is read as what it
  gives.
* `Detab.Layer.ofValue_object_eq_ok_iff` — **an object is read as what its entries mean.**
* `Detab.Layer.Means.perm`, `Detab.Layer.means_null_iff` — the order of entries, and a null among
  them.
-/

namespace Detab

namespace Layer

open Json5

variable {value : Value} {given : Given} {key : CodePoints} {entries : List (CodePoints × Value)}
  {layer : Layer}

/-! ## Values -/

/-- **What a value gives as a pattern:** nothing for null, and a pattern for its text. -/
inductive GivesPattern : Value → Option Pattern → Prop
  | null : GivesPattern .null none
  | text (pattern : Pattern) :
      GivesPattern (.text (codePoints pattern.text.toList)) (some pattern)

/-- **What a value gives as a width:** nothing for null, and for a number its reading as a signed integer
of 64 bits, if that is not negative. -/
inductive GivesWidth : Value → Option Width → Prop
  | null : GivesWidth .null none
  | numeral {n : Numeral} {x : Binary64} {width : Width} :
      n.toBinary64 = .ok x → x.toInt64 = width.toNat → GivesWidth (.numeral n) (some width)

/-- A value is read as a pattern exactly when it gives this pattern.

**Proof sketch.** By the kinds of values: null gives nothing, a text is read and then parsed as a
pattern, and anything else is refused. -/
lemma readPattern_eq_ok_iff {pattern : Option Pattern} :
    readPattern value = .ok pattern ↔ GivesPattern value pattern := by
  constructor
  · intro h
    cases value with
    | null =>
      obtain rfl := Except.ok.inj h
      exact .null
    | text content =>
      obtain ⟨text, htext, hread⟩ := bind_eq_ok_iff.mp h
      obtain rfl := readText_eq_ok_iff.mp htext
      split at hread
      · rename_i pattern' hpattern
        obtain rfl := Except.ok.inj hread
        have hsame : text = pattern'.text.toList := by
          rw [← Pattern.ofText_eq_ok_iff.mp hpattern, String.toList_ofList]
        rw [hsame]
        exact .text pattern'
      · simp at hread
    | _ => simp [readPattern] at h
  · rintro (_ | pattern)
    · rfl
    · refine bind_eq_ok_iff.mpr ⟨pattern.text.toList, readText_eq_ok_iff.mpr rfl, ?_⟩
      rw [Pattern.ofText_eq_ok_iff.mpr String.ofList_toList]

/-- A value is read as a width exactly when it gives this width. -/
lemma readWidth_eq_ok_iff {width : Option Width} :
    readWidth value = .ok width ↔ GivesWidth value width := by
  constructor
  · intro h
    cases value with
    | null =>
      obtain rfl := Except.ok.inj h
      exact .null
    | numeral n =>
      obtain ⟨x, w, hx, h0, rfl, hw⟩ := width_of_readWidth h
      exact .numeral hx hw.symm
    | _ => simp [readWidth] at h
  · rintro (_ | ⟨hx, hw⟩)
    · rfl
    · rename_i width
      rw [readWidth, hx]
      simp only [hw]
      rw [if_neg (by omega)]
      simp

/-! ## Settings -/

/-- **The settings that some entries mean.** Every key names a setting, none is named twice, and a
setting is what its value gives; without one it is absent. -/
structure Means (entries : List (CodePoints × Value)) (layer : Layer) : Prop where
  known : ∀ key ∈ entries.map Prod.fst, ∃ field : Field, key = field.key
  once : (entries.map Prod.fst).Nodup
  pattern : ∀ value, (Field.pattern.key, value) ∈ entries → GivesPattern value layer.pattern
  width : ∀ value, (Field.spaces.key, value) ∈ entries → GivesWidth value layer.width
  noPattern : Field.pattern.key ∉ entries.map Prod.fst → layer.pattern = none
  noWidth : Field.spaces.key ∉ entries.map Prod.fst → layer.width = none

/-- What some entries give, beginning with nothing, are the settings that they mean. -/
lemma Gives.means (h : Gives ⟨none, none⟩ entries given) : Means entries given.layer := by
  refine ⟨h.known, h.once, ?_, ?_, ?_, ?_⟩
  · intro value hmem
    obtain ⟨pattern, hpattern, hget⟩ := h.present .pattern value hmem
    have hlayer : given.layer.pattern = pattern := congrArg (·.getD none) hget
    rw [hlayer]
    exact readPattern_eq_ok_iff.mp hpattern
  · intro value hmem
    obtain ⟨width, hwidth, hget⟩ := h.present .spaces value hmem
    have hlayer : given.layer.width = width := congrArg (·.getD none) hget
    rw [hlayer]
    exact readWidth_eq_ok_iff.mp hwidth
  · exact fun hkey => congrArg (·.getD none) (h.absent .pattern hkey)
  · exact fun hkey => congrArg (·.getD none) (h.absent .spaces hkey)

/-- The settings that entries give of which it is known what they mean.

**Proof sketch.** What was given is the pattern or the width, where its key is among the entries,
and nothing otherwise; the absence of a key and a null value come to the same layer. -/
lemma Means.exists_gives (h : Means entries layer) :
    ∃ given, Gives ⟨none, none⟩ entries given ∧ given.layer = layer := by
  obtain ⟨pattern, width⟩ := layer
  let keys := entries.map Prod.fst
  refine ⟨⟨if Field.pattern.key ∈ keys then some pattern else none,
    if Field.spaces.key ∈ keys then some width else none⟩, ⟨h.known, h.once, ?_, ?_, ?_⟩, ?_⟩
  · rintro (_ | _) hsome <;> cases hsome
  · rintro (_ | _) value hmem
    · have hkey : Field.pattern.key ∈ keys := List.mem_map_of_mem hmem
      exact ⟨pattern, readPattern_eq_ok_iff.mpr (h.pattern value hmem), if_pos hkey⟩
    · have hkey : Field.spaces.key ∈ keys := List.mem_map_of_mem hmem
      exact ⟨width, readWidth_eq_ok_iff.mpr (h.width value hmem), if_pos hkey⟩
  · rintro (_ | _) hkey
    · exact if_neg hkey
    · exact if_neg hkey
  · have hpattern := h.noPattern
    have hwidth := h.noWidth
    simp only [Given.layer, Layer.mk.injEq]
    constructor
    · split
      · rfl
      · rename_i hkey
        exact (hpattern hkey).symm
    · split
      · rfl
      · rename_i hkey
        exact (hwidth hkey).symm

/-- **An object is read as what its entries mean.** -/
lemma ofValue_object_eq_ok_iff :
    ofValue (.object entries) = .ok layer ↔ Means entries layer := by
  have hread : ofValue (.object entries) = .ok layer ↔
      ∃ given, Given.takeAll ⟨none, none⟩ entries = .ok given ∧ given.layer = layer := by
    rw [ofValue]
    cases Given.takeAll ⟨none, none⟩ entries <;> simp [Except.map]
  rw [hread]
  constructor
  · rintro ⟨given, hgiven, rfl⟩
    exact (takeAll_eq_ok_iff.mp hgiven).means
  · intro h
    obtain ⟨given, hgives, hlayer⟩ := h.exists_gives
    exact ⟨given, takeAll_eq_ok_iff.mpr hgives, hlayer⟩

/-! ## Order and nulls -/

/-- The order of the entries does not matter. -/
lemma Means.perm {entries' : List (CodePoints × Value)} (h : Means entries layer)
    (hperm : entries.Perm entries') : Means entries' layer := by
  have hkeys := hperm.map Prod.fst
  refine ⟨?_, hkeys.nodup_iff.mp h.once, ?_, ?_, ?_, ?_⟩
  · exact fun key hkey => h.known key (hkeys.mem_iff.mpr hkey)
  · exact fun value hmem => h.pattern value (hperm.mem_iff.mpr hmem)
  · exact fun value hmem => h.width value (hperm.mem_iff.mpr hmem)
  · exact fun hkey => h.noPattern fun hmem => hkey (hkeys.mem_iff.mp hmem)
  · exact fun hkey => h.noWidth fun hmem => hkey (hkeys.mem_iff.mp hmem)

/-- An entry that is null can be left out: a setting that is null is absent, as it is without the
entry.

**Proof sketch.** Only the two clauses on absent keys are at stake. If the entry was the one for a
key, its null value has made the setting absent already; otherwise the key is absent from all
entries. -/
lemma Means.of_null (h : Means ((key, .null) :: entries) layer) : Means entries layer := by
  refine ⟨fun key' hkey => h.known key' (List.mem_cons_of_mem _ hkey),
    (List.nodup_cons.mp h.once).2, fun value hmem => h.pattern value (List.mem_cons_of_mem _ hmem),
    fun value hmem => h.width value (List.mem_cons_of_mem _ hmem), ?_, ?_⟩
  · intro hkey
    by_cases hsame : key = Field.pattern.key
    · subst hsame
      have hnull := h.pattern .null List.mem_cons_self
      generalize layer.pattern = pattern at hnull
      cases hnull
      rfl
    · exact h.noPattern (List.not_mem_cons_of_ne_of_not_mem (Ne.symm hsame) hkey)
  · intro hkey
    by_cases hsame : key = Field.spaces.key
    · subst hsame
      have hnull := h.width .null List.mem_cons_self
      generalize layer.width = width at hnull
      cases hnull
      rfl
    · exact h.noWidth (List.not_mem_cons_of_ne_of_not_mem (Ne.symm hsame) hkey)

/-- An entry that is null can be put in front when its setting is not given by the others.

**Proof sketch.** The new entry gives null for a setting that the layer does not have, since no
other entry names it; all other clauses are about the other entries. -/
lemma Means.null (h : Means entries layer) {field : Field}
    (hkey : field.key ∉ entries.map Prod.fst) : Means ((field.key, .null) :: entries) layer := by
  refine ⟨?_, List.nodup_cons.mpr ⟨hkey, h.once⟩, ?_, ?_, ?_, ?_⟩
  · intro key hmem
    rcases List.mem_cons.mp hmem with rfl | hmem
    · exact ⟨field, rfl⟩
    · exact h.known key hmem
  · intro value hmem
    rcases List.mem_cons.mp hmem with heq | hmem
    · obtain ⟨hsame, rfl⟩ := Prod.mk.inj heq
      rw [h.noPattern (hsame ▸ hkey)]
      exact .null
    · exact h.pattern value hmem
  · intro value hmem
    rcases List.mem_cons.mp hmem with heq | hmem
    · obtain ⟨hsame, rfl⟩ := Prod.mk.inj heq
      rw [h.noWidth (hsame ▸ hkey)]
      exact .null
    · exact h.width value hmem
  · exact fun hmem => h.noPattern (List.not_mem_of_not_mem_cons hmem)
  · exact fun hmem => h.noWidth (List.not_mem_of_not_mem_cons hmem)

/-- **A null among the entries** means nothing: it has to stand for a setting that is not there
otherwise, and it can be omitted. -/
lemma means_null_iff {before after : List (CodePoints × Value)} :
    Means (before ++ (key, .null) :: after) layer ↔
      (∃ field : Field, key = field.key) ∧ key ∉ (before ++ after).map Prod.fst ∧
        Means (before ++ after) layer := by
  constructor
  · intro h
    have hfirst := h.perm List.perm_middle
    exact ⟨hfirst.known key List.mem_cons_self, (List.nodup_cons.mp hfirst.once).1, hfirst.of_null⟩
  · rintro ⟨⟨field, rfl⟩, hkey, h⟩
    exact (h.null hkey).perm List.perm_middle.symm

end Layer

end Detab
