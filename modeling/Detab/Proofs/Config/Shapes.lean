import Detab.Proofs.Config.Layout

set_option relaxedAutoImplicit false
set_option autoImplicit false

/-!
# Which documents are settings

An object names its settings, and what it does not name it does not set. An array is taken as well: its
items are settings by their position, and no key stands beside them that could be wrong. This file says
for every document whether settings are read from it, and which parts of it are looked at.

## Main definitions

* `Detab.Layer.MeansItems` — the settings that the items of an array mean.
* `Detab.Layer.MeansValue` — **the settings that a value means,** if it means any.

## Main results

* `Detab.Layer.ofValue_eq_ok_iff` — a value is read as what it means.
* `Detab.Layer.Means.entry`, `Detab.Layer.Means.exists_entry` — entries and settings, in both
  directions.
* `Detab.Layer.meansItems_take` — **the items behind the second one do not count.**
* `Detab.Config.shape_of_readLayer` — **which documents are settings.**
-/

namespace Detab

namespace Layer

open Json5

variable {value : Value} {entries : List (CodePoints × Value)} {items : List Value} {layer : Layer}
  {field : Field}

/-! ## Entries and settings -/

/-- A setting, if it is present. -/
def get (layer : Layer) : (field : Field) → Option field.Setting
  | .pattern => layer.pattern
  | .spaces => layer.width

/-- **No entry is passed over:** each gives the setting that it names. -/
lemma Means.entry (h : Means entries layer) {key : CodePoints} (hmem : (key, value) ∈ entries) :
    ∃ field : Field, key = field.key ∧ field.read value = .ok (layer.get field) := by
  obtain ⟨field, rfl⟩ := h.known key (List.mem_map_of_mem hmem)
  refine ⟨field, rfl, ?_⟩
  cases field with
  | pattern => exact readPattern_eq_ok_iff.mpr (h.pattern value hmem)
  | spaces => exact readWidth_eq_ok_iff.mpr (h.width value hmem)

/-- A setting that no entry names is absent. -/
lemma Means.get_of_notMem (h : Means entries layer) (hkey : field.key ∉ entries.map Prod.fst) :
    layer.get field = none := by
  cases field with
  | pattern => exact h.noPattern hkey
  | spaces => exact h.noWidth hkey

/-- **No setting comes from elsewhere:** it is given by the entry that names it. -/
lemma Means.exists_entry (h : Means entries layer) {setting : field.Setting}
    (hget : layer.get field = some setting) :
    ∃ value, (field.key, value) ∈ entries ∧ field.read value = .ok (some setting) := by
  have hkey : field.key ∈ entries.map Prod.fst := by
    by_contra hkey
    rw [h.get_of_notMem hkey] at hget
    cases hget
  obtain ⟨⟨key, value⟩, hmem, rfl⟩ := List.mem_map.mp hkey
  obtain ⟨field', hsame, hread⟩ := h.entry hmem
  obtain rfl := Field.key_inj hsame
  exact ⟨value, hmem, by rw [hread, hget]⟩

/-! ## Items -/

/-- **The settings that the items of an array mean:** the first one gives the pattern and the second
one the width, where an item that is missing is null. -/
structure MeansItems (items : List Value) (layer : Layer) : Prop where
  pattern : GivesPattern (items[0]?.getD .null) layer.pattern
  width : GivesWidth (items[1]?.getD .null) layer.width

/-- The items of an array are read as settings exactly when they mean these settings. -/
lemma ofItems_eq_ok_iff : ofItems items = .ok layer ↔ MeansItems items layer := by
  -- missing items count as null, which leaves one case
  have hread : ofItems items = (readPattern (items[0]?.getD .null) >>= fun pattern =>
      readWidth (items[1]?.getD .null) >>= fun width => pure ⟨pattern, width⟩) := by
    match items with
    | [] => rfl
    | [_] => rfl
    | _ :: _ :: _ => rfl
  rw [hread, bind_eq_ok_iff]
  constructor
  · rintro ⟨pattern, hpattern, hrest⟩
    obtain ⟨width, hwidth, hlayer⟩ := bind_eq_ok_iff.mp hrest
    obtain rfl := Except.ok.inj hlayer
    exact ⟨readPattern_eq_ok_iff.mp hpattern, readWidth_eq_ok_iff.mp hwidth⟩
  · intro h
    exact ⟨layer.pattern, readPattern_eq_ok_iff.mpr h.pattern,
      bind_eq_ok_iff.mpr ⟨layer.width, readWidth_eq_ok_iff.mpr h.width, rfl⟩⟩

/-- **The items behind the second one do not count,** whatever they are. -/
lemma meansItems_take : MeansItems (items.take 2) layer ↔ MeansItems items layer := by
  have hfirst : (items.take 2)[0]? = items[0]? := List.getElem?_take_of_lt (by decide)
  have hsecond : (items.take 2)[1]? = items[1]? := List.getElem?_take_of_lt (by decide)
  constructor
  · rintro ⟨hpattern, hwidth⟩
    exact ⟨hfirst ▸ hpattern, hsecond ▸ hwidth⟩
  · rintro ⟨hpattern, hwidth⟩
    exact ⟨hfirst.symm ▸ hpattern, hsecond.symm ▸ hwidth⟩

/-! ## Values -/

/-- **The settings that a value means.** A value that is neither an object nor an array means none. -/
inductive MeansValue : Value → Layer → Prop
  | object {entries : List (CodePoints × Value)} {layer : Layer} :
      Means entries layer → MeansValue (.object entries) layer
  | array {items : List Value} {layer : Layer} :
      MeansItems items layer → MeansValue (.array items) layer

/-- For an object, the settings that a value means are those that its entries mean. -/
lemma meansValue_object_iff : MeansValue (.object entries) layer ↔ Means entries layer := by
  constructor
  · rintro (h | h)
    exact h
  · exact .object

/-- For an array, the settings that a value means are those that its items mean by their positions.
-/
lemma meansValue_array_iff : MeansValue (.array items) layer ↔ MeansItems items layer := by
  constructor
  · rintro (h | h)
    exact h
  · exact .array

/-- **A value is read as what it means.** -/
lemma ofValue_eq_ok_iff : ofValue value = .ok layer ↔ MeansValue value layer := by
  constructor
  · intro h
    cases value with
    | object entries => exact .object (ofValue_object_eq_ok_iff.mp h)
    | array items => exact .array (ofItems_eq_ok_iff.mp h)
    | _ => simp [ofValue] at h
  · rintro (h | h)
    · exact ofValue_object_eq_ok_iff.mpr h
    · exact ofItems_eq_ok_iff.mpr h

/-- **A text is read as settings** exactly when it is a document whose value means them. -/
lemma ofText_eq_ok_iff_parse? {text : List Char} :
    ofText text = .ok layer ↔ ∃ value, parse? text = some value ∧ MeansValue value layer := by
  rw [ofText]
  cases parse? text with
  | none => simp
  | some value => simp [ofValue_eq_ok_iff]

end Layer

/-- A text is a document with a value if that is what all its tokens spell, and these are not nested
too deep. -/
lemma Json5.parse?_eq_some_iff {text : List Char} {value : Value} :
    parse? text = some value ↔
      ∃ tokens, scan text = some tokens ∧ nesting tokens ≤ maxNesting ∧ Spells tokens value := by
  rw [parse?, Option.bind_eq_some_iff]
  simp [Option.ite_none_right_eq_some, valueOf?_eq_some_iff]

namespace Config

open Json5 Layer

variable {world : World} {path : Path} {text : List Char} {layer : Layer}

/-- From a file that holds a text, exactly those settings are read that the value of the text means.
-/
lemma Holds.reads_iff_value (h : Holds world path text) :
    Reads world path layer ↔ ∃ value, parse? text = some value ∧ MeansValue value layer :=
  h.reads_iff.trans ofText_eq_ok_iff_parse?

/-- **Which documents are settings.** Let a file hold a text.

* Settings are read from the file if and only if the tokens of the text, all of them, spell a value
  that means them: an object by its entries, or an array by its items.
* If it is an object, no entry names a setting that another one names, each gives the setting that it
  names, and each setting that is present is given by the entry that names it.
* If it is an array, its items behind the second one do not count: a file with the array without them
  gives the same settings.
* Any other document is rejected as something else than settings.

**Proof sketch.** Reading a file is reading the value of its text, by `Holds.reads_iff_value`. The
first clause puts in what spells a value; the second one takes the meaning of an object apart; the
third one is that items behind the second one are not looked at; and the last one goes through the
kinds of values. -/
theorem shape_of_readLayer (hholds : Holds world path text) :
    (∀ layer, Reads world path layer ↔ ∃ tokens value, scan text = some tokens ∧
      nesting tokens ≤ maxNesting ∧ Spells tokens value ∧ MeansValue value layer) ∧
    (∀ entries, parse? text = some (.object entries) → ∀ layer, Reads world path layer →
      (entries.map Prod.fst).Nodup ∧
      (∀ key value, (key, value) ∈ entries →
        ∃ field : Field, key = field.key ∧ field.read value = .ok (layer.get field)) ∧
      ∀ (field : Field) setting, layer.get field = some setting →
        ∃ value, (field.key, value) ∈ entries ∧ field.read value = .ok (some setting)) ∧
    (∀ items, parse? text = some (.array items) → ∀ text' world' path',
      parse? text' = some (.array (items.take 2)) → Holds world' path' text' →
      ∀ layer, Reads world path layer ↔ Reads world' path' layer) ∧
    (∀ value, parse? text = some value → (∀ entries, value ≠ .object entries) →
      (∀ items, value ≠ .array items) →
      (readLayer path).run.run world =
        (.error (.invalid path (unexpected value .settings)), world)) := by
  refine ⟨?_, ?_, ?_, ?_⟩
  · intro layer
    rw [hholds.reads_iff_value]
    simp only [parse?_eq_some_iff]
    constructor
    · rintro ⟨value, ⟨tokens, hscan, hnesting, hspells⟩, hmeans⟩
      exact ⟨tokens, value, hscan, hnesting, hspells, hmeans⟩
    · rintro ⟨tokens, value, hscan, hnesting, hspells, hmeans⟩
      exact ⟨value, ⟨tokens, hscan, hnesting, hspells⟩, hmeans⟩
  · intro entries hparse layer h
    obtain ⟨value, hvalue, hvalueMeans⟩ := hholds.reads_iff_value.mp h
    obtain rfl := Option.some.inj (hparse.symm.trans hvalue)
    have hmeans := meansValue_object_iff.mp hvalueMeans
    exact ⟨hmeans.once, fun _ _ => hmeans.entry, fun _ _ => hmeans.exists_entry⟩
  · intro items hparse text' world' path' hparse' hholds' layer
    have harray : ∀ {text items}, parse? text = some (.array items) →
        ((∃ value, parse? text = some value ∧ MeansValue value layer) ↔ MeansItems items layer) := by
      intro text items hparse
      simp [hparse, meansValue_array_iff]
    rw [hholds.reads_iff_value, hholds'.reads_iff_value, harray hparse, harray hparse',
      meansItems_take]
  · intro value hparse hobject harray
    obtain ⟨contents, hread, htext⟩ := hholds
    rw [run_readLayer hread htext, ofText, hparse]
    cases value with
    | object entries => exact absurd rfl (hobject entries)
    | array items => exact absurd rfl (harray items)
    | _ => rfl

/-- The pattern `*.c`. -/
def sources : Pattern where
  text := "*.c"
  tokens := [.run, .literal '.', .literal 'c']
  read := rfl

/-- An array in which a third item stands behind the pattern `*.c` and the width 2. -/
def threeItems : List Value :=
  [.text (codePoints "*.c".toList), .numeral (.ofNat 2), .text (codePoints "junk".toList)]

/-- The example text is a document, and its value is an array of three items. -/
lemma parse?_threeItems : parse? "['*.c', 2, 'junk']".toList = some (.array threeItems) := by
  have hscan : scan "['*.c', 2, 'junk']".toList = some [.openBracket, .text (codePoints "*.c".toList),
      .comma, .numeral (.ofNat 2), .comma, .text (codePoints "junk".toList), .closeBracket] := by
    decide +kernel
  rw [parse?, hscan]
  rfl

/-- The file of the example world holds the example text. -/
lemma holds_threeItems :
    Holds (holding "['*.c', 2, 'junk']") (utf8 "config.json5") "['*.c', 2, 'junk']".toList :=
  holds_of_encode rfl

/-- An array with a third item gives what it gives without that item. -/
theorem shape_of_readLayer_third :
    Reads (holding "['*.c', 2, 'junk']") (utf8 "config.json5") ⟨some sources, some 2⟩ := by
  obtain ⟨-, -, harray, -⟩ := shape_of_readLayer holds_threeItems
  have hscan : scan "['*.c', 2]".toList = some [.openBracket, .text (codePoints "*.c".toList),
      .comma, .numeral (.ofNat 2), .closeBracket] := by
    decide +kernel
  have hparse : parse? "['*.c', 2]".toList = some (.array (threeItems.take 2)) := by
    rw [parse?, hscan]
    rfl
  have hholds : Holds (holding "['*.c', 2]") (utf8 "config.json5") "['*.c', 2]".toList :=
    holds_of_encode rfl
  have hread : Reads (holding "['*.c', 2]") (utf8 "config.json5") ⟨some sources, some 2⟩ :=
    hholds.reads_iff.mpr (by decide +kernel)
  exact (harray threeItems parse?_threeItems _ _ _ hparse hholds _).mpr hread

/-- **Settings need no keys,** and not all that is written has to be looked at: both settings are read
from an array, and its third item means nothing. -/
theorem readLayer_threeItems :
    parse? "['*.c', 2, 'junk']".toList = some (.array threeItems) ∧ threeItems.length = 3 ∧
      Reads (holding "['*.c', 2, 'junk']") (utf8 "config.json5") ⟨some sources, some 2⟩ :=
  ⟨parse?_threeItems, rfl, holds_threeItems.reads_iff.mpr (by decide +kernel)⟩

end Config

end Detab
