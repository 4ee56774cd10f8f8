import Detab.Proofs.Config.Meaning
import Detab.Proofs.Json5.Documents
import Detab.Proofs.Json5.Writing
import Detab.Proofs.Text.Encoding
import Mathlib.Logic.Relation

set_option relaxedAutoImplicit false
set_option autoImplicit false

/-!
# Layouts of a file of settings

The same settings can be written in many ways. This file collects what may be changed in a text without
a change of what is read from it, and shows that settings which are written can be read again.

## Main definitions

* `Detab.Json5.IsObject`, `Detab.Json5.IsWritten` — a text that is an object, by its entries and by its
  members as they are written.
* `Detab.Json5.Relaid` — **a text with another layout.**
* `Detab.Layer.written` — both settings as a text.

## Main results

* `Detab.Layer.ofText_eq_ok_iff` — an object is read as what its entries mean.
* `Detab.Layer.ofText_of_relaid` — another layout gives the same settings.
* `Detab.Layer.ofText_of_written` — what is written is read again.
* `Detab.Config.meaning_of_object` — **the meaning of a file of settings does not depend on its
  layout.**

## Design

To put in a blank or a comment is a change of the text, and it rests on where tokens end. To move a
member, or to write its key in another way, is a change of tokens: any two texts that are cut into the
tokens of the same members are related, however each token is spelled.
-/

namespace Detab

open Json5

/-! ## Layout -/

namespace Json5

/-- A text that is an object with certain entries. -/
def IsObject (text : List Char) (entries : List (CodePoints × Value)) : Prop :=
  ∃ tokens, scan text = some tokens ∧ valueOf? tokens = some (.object entries)

/-- A text that is an object with certain members, as they are written. -/
def IsWritten (text : List Char) (members : List Member) : Prop :=
  ∃ trailing, scan text = some (document trailing members)

/-- **A text with another layout:** with one more gap, with a comment at the end, or with the members
in another order, their keys written in another way, and a comma behind the last one or not. -/
inductive Relaid : List Char → List Char → Prop
  | gap {before gap after : List Char} :
      Between before after → Gap gap → Relaid (before ++ after) (before ++ (gap ++ after))
  | last {before body : List Char} :
      Between before [] → (∀ c ∈ body, isLineEnd c = false) →
        Relaid before (before ++ '/' :: '/' :: body)
  | members {text text' : List Char} {members members' : List Member} :
      IsWritten text members → IsWritten text' members' →
        (members.map Member.entry).Perm (members'.map Member.entry) → Relaid text text'

/-- A text that is an object with certain members, as they are written, is an object with the
entries that these members give. -/
lemma IsWritten.isObject {text : List Char} {members : List Member} (h : IsWritten text members) :
    IsObject text (members.map Member.entry) := by
  obtain ⟨trailing, hscan⟩ := h
  exact ⟨_, hscan, valueOf?_eq_some_iff.mpr (spells_document trailing members)⟩

end Json5

namespace Layer

variable {text text' : List Char} {entries : List (CodePoints × Value)} {layer : Layer}

/-- A value that gives a pattern holds no other values: it is null or a text. -/
lemma GivesPattern.isFlat {value : Value} {pattern : Option Pattern} (h : GivesPattern value pattern) :
    value.isFlat = true := by
  cases h <;> rfl

/-- A value that gives a width holds no other values: it is null or a number. -/
lemma GivesWidth.isFlat {value : Value} {width : Option Width} (h : GivesWidth value width) :
    value.isFlat = true := by
  cases h <;> rfl

/-- **Settings are flat.** When entries mean some settings, none of their values holds other values,
so nothing is nested deeper than the object itself. -/
lemma Means.isFlat (h : Means entries layer) : ∀ entry ∈ entries, entry.2.isFlat = true := by
  rintro ⟨key, value⟩ hmem
  obtain ⟨field, rfl⟩ := h.known key (List.mem_map_of_mem hmem)
  cases field with
  | pattern => exact (h.pattern value hmem).isFlat
  | spaces => exact (h.width value hmem).isFlat

/-- **An object is read as what its entries mean.** An object that is nested too deep is no document,
but it has no meaning either.

**Proof sketch.** An object is read by its entries, if it is not nested too deep. When the entries
mean something their values are flat, and then the object is not nested at all beyond its own
braces. -/
lemma ofText_eq_ok_iff (h : IsObject text entries) :
    ofText text = .ok layer ↔ Means entries layer := by
  obtain ⟨tokens, hscan, hvalue⟩ := h
  obtain ⟨trailing, members, rfl, rfl⟩ := exists_document (valueOf?_eq_some_iff.mp hvalue)
  have hparse : nesting (document trailing members) ≤ maxNesting →
      ofText text = ofValue (.object (members.map Member.entry)) := by
    intro hnesting
    rw [ofText, parse?, hscan, Option.bind_some, if_pos hnesting, hvalue]
  constructor
  · intro h
    by_cases hnesting : nesting (document trailing members) ≤ maxNesting
    · rw [hparse hnesting] at h
      exact ofValue_object_eq_ok_iff.mp h
    · rw [ofText, parse?, hscan, Option.bind_some, if_neg hnesting] at h
      simp at h
  · intro h
    -- what means something is flat, so it is not nested too deep
    have hflat : ∀ member ∈ members, member.value.isFlat = true :=
      fun member hmember => h.isFlat member.entry (List.mem_map_of_mem hmember)
    have hnesting : nesting (document trailing members) ≤ maxNesting := by
      rw [nesting_document hflat]
      decide
    rw [hparse hnesting]
    exact ofValue_object_eq_ok_iff.mpr h

/-- Two texts with the same tokens are read alike, as settings or with the same error. -/
lemma ofText_congr (h : scan text = scan text') : ofText text = ofText text' := by
  rw [ofText, ofText, parse?, parse?, h]

/-- **Another layout gives the same settings.** -/
lemma ofText_of_relaid (h : Relaid text text') : ofText text = .ok layer ↔ ofText text' = .ok layer := by
  cases h with
  | gap hbetween hgap => rw [ofText_congr (scan_insert hbetween hgap)]
  | last hbetween hbody => rw [ofText_congr (scan_insert_last hbetween hbody)]
  | members hwritten hwritten' hperm =>
    rw [ofText_eq_ok_iff hwritten.isObject, ofText_eq_ok_iff hwritten'.isObject]
    exact ⟨fun h => h.perm hperm, fun h => h.perm hperm.symm⟩

/-- Any number of changes to the layout, in either direction, leaves the settings that a text is
read as. -/
lemma ofText_of_eqvGen (h : Relation.EqvGen Relaid text text') :
    ofText text = .ok layer ↔ ofText text' = .ok layer := by
  induction h with
  | rel text text' h => exact ofText_of_relaid h
  | refl text => exact Iff.rfl
  | symm text text' _ ih => exact ih.symm
  | trans text text' text'' _ _ ih ih' => exact ih.trans ih'

/-- **A null member can be omitted,** if it stands for a setting that is not there otherwise. -/
lemma ofText_of_null {before after : List Member} {member : Member} (hnull : member.value = .null)
    (h : IsWritten text (before ++ member :: after)) (h' : IsWritten text' (before ++ after)) :
    ofText text = .ok layer ↔
      (∃ field : Field, member.name = field.key) ∧
        member.name ∉ (before ++ after).map Member.name ∧ ofText text' = .ok layer := by
  have hnames : ((before ++ after).map Member.entry).map Prod.fst =
      (before ++ after).map Member.name := by
    rw [List.map_map]
    rfl
  rw [ofText_eq_ok_iff h.isObject, ofText_eq_ok_iff h'.isObject, ← hnames, List.map_append,
    List.map_append, List.map_cons, show member.entry = (member.name, .null) by rw [Member.entry, hnull]]
  exact means_null_iff

/-! ## Writing settings -/

/-- A key, bare or between quotes. -/
def keyText (quote? : Option Char) (field : Field) : List Char :=
  match quote? with
  | none => field.name.toList
  | some quote => quote :: (field.name.toList ++ [quote])

/-- The token of such a key. -/
def keyToken (quote? : Option Char) (field : Field) : Token :=
  match quote? with
  | none => .word field.key false
  | some _ => .text field.key

/-- **Both settings as a text,** the pattern between quotes and the width in decimal. -/
def written (keyQuote? : Option Char) (quote : Char) (body : List Char) (n : Nat) : List Char :=
  '\x7b' :: (keyText keyQuote? .pattern ++ ':' :: quote :: (body ++ quote :: ',' ::
    (keyText keyQuote? .spaces ++ ':' :: (Nat.toDigits 10 n ++ ['\x7d']))))

/-- The characters that may stand for a quote. -/
def IsQuote (c : Char) : Prop :=
  c = '"' ∨ c = '\''

/-- A key before its colon is scanned as one token, bare or between quotes of either kind, whatever
comes behind the colon.

**Proof sketch.** By the ways of writing the key. A bare key is a word that the colon ends; a key
between quotes is a text that spells itself, as no letter of it needs an escape. -/
lemma scan_keyText {quote? : Option Char} (hquote : ∀ quote ∈ quote?, IsQuote quote) (field : Field)
    (rest : List Char) :
    scan (keyText quote? field ++ ':' :: rest) =
      (scan rest).map fun tokens => keyToken quote? field :: .colon :: tokens := by
  have hcolon : scan (':' :: rest) = (scan rest).map (.colon :: ·) := scan_token rfl
  cases quote? with
  | none =>
    have hend : readWord (':' :: rest) = ([], false, ':' :: rest) := by
      rw [readWord.eq_2 _ _ (by simp), if_neg (by decide +kernel)]
    have htoken : ∃ c word, field.name.toList = c :: word ∧
        readToken? c (word ++ ':' :: rest) = some (.word field.key false, ':' :: rest) := by
      cases field with
      | pattern =>
        exact ⟨'p', "attern".toList, rfl, readToken?_word (by decide +kernel) (by decide +kernel) hend⟩
      | spaces =>
        exact ⟨'s', "paces".toList, rfl, readToken?_word (by decide +kernel) (by decide +kernel) hend⟩
    obtain ⟨c, word, hname, htoken⟩ := htoken
    rw [keyText, hname, List.cons_append, scan_token htoken, hcolon, Option.map_map]
    rfl
  | some quote =>
    have hspelled : Spelled quote field.name.toList field.key := by
      rcases hquote quote rfl with rfl | rfl <;> cases field <;> exact spelled_self (by decide)
    have htoken := readToken?_text (hquote quote rfl) hspelled (':' :: rest)
    have hlist : keyText (some quote) field ++ ':' :: rest =
        quote :: (field.name.toList ++ quote :: ':' :: rest) := by
      simp [keyText]
    rw [hlist, scan_token htoken, hcolon, Option.map_map]
    rfl

/-- The token of a key gives the name of its setting back, however the key is written. -/
lemma keyName?_keyToken (quote? : Option Char) (field : Field) :
    keyName? (keyToken quote? field) = some field.key := by
  cases quote? <;> rfl

/-- The text is the object that it is meant to be.

**Proof sketch.** Scanned token by token from the left: the brace, the key and colon of the pattern,
the text, the comma, the key and colon of the width, the number, and the brace that closes the
object. -/
lemma isWritten_written {keyQuote? : Option Char} (hkey : ∀ quote ∈ keyQuote?, IsQuote quote)
    {quote : Char} (hquote : IsQuote quote) {body : List Char} {content : CodePoints}
    (hbody : Spelled quote body content) (n : Nat) :
    IsWritten (written keyQuote? quote body n)
      [⟨keyToken keyQuote? .pattern, Field.pattern.key, [.text content], .text content,
          keyName?_keyToken _ _, .text⟩,
        ⟨keyToken keyQuote? .spaces, Field.spaces.key, [.numeral (.ofNat n)], .numeral (.ofNat n),
          keyName?_keyToken _ _, .numeral⟩] := by
  refine ⟨false, ?_⟩
  have hclose : scan ['\x7d'] = some [.closeBrace] := by
    have htoken : readToken? '\x7d' [] = some (.closeBrace, []) := rfl
    rw [scan_token htoken]
    rfl
  have hnumber : scan (Nat.toDigits 10 n ++ ['\x7d']) = some [.numeral (.ofNat n), .closeBrace] := by
    obtain ⟨d, digits, heq, htoken⟩ :=
      exists_readToken?_ofNat n (c := '\x7d') (by decide) (by decide) []
    rw [heq, List.cons_append, scan_token htoken, hclose]
    rfl
  have hcomma : ∀ rest, scan (',' :: rest) = (scan rest).map (.comma :: ·) := fun _ => scan_token rfl
  have hopen : ∀ rest, scan ('\x7b' :: rest) = (scan rest).map (.openBrace :: ·) :=
    fun _ => scan_token rfl
  rw [written, hopen, scan_keyText hkey, scan_token (readToken?_text hquote hbody _), hcomma,
    scan_keyText hkey, hnumber]
  rfl

/-- **What is written is read.**

**Proof sketch.** A number up to `2 ^ 53` is in the format, so rounding it gives the number itself,
which is finite, has no fraction and is within 64 bits. -/
lemma givesWidth_ofNat {n : ℕ} (hn : n ≤ 2 ^ 53) :
    GivesWidth (.numeral (.ofNat n)) (some (UInt64.ofNat n)) := by
  have hvalue : (Numeral.ofNat n).value? = some (n : ℚ) := by
    simp [Numeral.value?, Numeral.ofNat, Binary64.signed, Numeral.foldDigits_toDigits]
  obtain ⟨s, e, hfinite⟩ := Binary64.exists_finite_ofDecimal hn
  have hread : (Numeral.ofNat n).toBinary64 = .ok (.finite false s e) := by
    simp [Numeral.toBinary64, Numeral.ofNat, digitsValue_eq_foldDigits, Numeral.foldDigits_toDigits,
      hfinite]
  obtain ⟨y, hy, hnearest⟩ := isNearest_of_toBinary64 hread hvalue
  obtain rfl := hnearest.eq_of_inFormat (Binary64.inFormat_of_le n hn)
  have h0 : 0 ≤ (Binary64.finite false s e).toInt64 := by
    rw [Binary64.toInt64_finite]
    have hmax : 0 ≤ Binary64.maxInt64 := by decide
    simp only [Bool.false_eq_true, if_false]
    omega
  obtain ⟨-, hfloor⟩ := Binary64.toInt64_of_value hy h0
  refine .numeral hread ?_
  rw [hfloor, Nat.floor_natCast, Binary64.maxInt64, UInt64.toNat_ofNat', Nat.mod_eq_of_lt (by omega)]
  omega

/-- **The entries of a written pair** of a pattern and a width mean this pattern and this width,
when the width is at most `2 ^ 53`.

**Proof sketch.** Clause by clause: the two keys are known and differ, and each value gives its
setting; for the width this is the bound on the number. -/
lemma means_written (pattern : Pattern) {n : ℕ} (hn : n ≤ 2 ^ 53) :
    Means [(Field.pattern.key, .text (codePoints pattern.text.toList)),
      (Field.spaces.key, .numeral (.ofNat n))] ⟨some pattern, some (UInt64.ofNat n)⟩ := by
  have hne : Field.pattern.key ≠ Field.spaces.key := by decide
  refine ⟨?_, ?_, ?_, ?_, ?_, ?_⟩
  · intro key hkey
    rcases List.mem_pair.mp hkey with rfl | rfl
    · exact ⟨.pattern, rfl⟩
    · exact ⟨.spaces, rfl⟩
  · simp [hne]
  · intro value hmem
    rcases List.mem_pair.mp hmem with heq | heq
    · obtain ⟨-, rfl⟩ := Prod.mk.inj heq
      exact .text pattern
    · exact absurd (Prod.mk.inj heq).1 hne
  · intro value hmem
    rcases List.mem_pair.mp hmem with heq | heq
    · exact absurd (Prod.mk.inj heq).1.symm hne
    · obtain ⟨-, rfl⟩ := Prod.mk.inj heq
      exact givesWidth_ofNat hn
  · simp
  · simp

/-- **What is written is read again,** also in any other layout. -/
lemma ofText_of_written {keyQuote? : Option Char} (hkey : ∀ quote ∈ keyQuote?, IsQuote quote)
    {quote : Char} (hquote : IsQuote quote) {pattern : Pattern} {body : List Char}
    (hbody : Spelled quote body (codePoints pattern.text.toList)) {n : ℕ} (hn : n ≤ 2 ^ 53)
    (h : Relation.EqvGen Relaid (written keyQuote? quote body n) text) :
    ofText text = .ok ⟨some pattern, some (UInt64.ofNat n)⟩ := by
  have hobject := (isWritten_written hkey hquote hbody n).isObject
  exact (ofText_of_eqvGen h).mp ((ofText_eq_ok_iff hobject).mpr (means_written pattern hn))

end Layer

namespace Config

open Layer

variable {world : World} {path : Path} {text : List Char} {layer : Layer}

/-- A file that holds a text. -/
def Holds (world : World) (path : Path) (text : List Char) : Prop :=
  ∃ contents, world.fs.read path = .ok contents ∧ Utf8.strict? (unpack contents) = some text

/-- A file to which a text is written holds it. -/
lemma holds_of_encode (h : world.fs.read path = .ok (pack (Utf8.encode text))) :
    Holds world path text :=
  ⟨_, h, by rw [unpack_pack, Utf8.strict?_encode]⟩

/-- A file from which certain settings are read. -/
def Reads (world : World) (path : Path) (layer : Layer) : Prop :=
  (readLayer path).run.run world = (.ok layer, world)

/-- From a file that holds a text, exactly those settings are read that the text is read as. -/
lemma Holds.reads_iff (h : Holds world path text) :
    Reads world path layer ↔ ofText text = .ok layer := by
  obtain ⟨contents, hread, htext⟩ := h
  constructor
  · exact ofText_of_readLayer hread htext
  · intro hlayer
    rw [Reads, run_readLayer hread htext, hlayer]
    rfl

/-- **The meaning of a file of settings does not depend on its layout.** Let a file hold a text.

* If the text is an object, settings are read from it if and only if its entries mean them: every key
  names a setting, none is named twice, not even with null, and the values give the settings.
* Any other layout of the text gives the same settings: further blanks and comments between tokens,
  another order of the members, other ways of writing the keys, a comma behind the last member.
* A null member that names a setting which is not there otherwise can be omitted.
* A pattern that is written between quotes, as `escaped` writes it or in any other way that spells it,
  and a whole number up to `2 ^ 53` that is written in decimal are read again from a file to which they
  are written, and from any other layout.

**Proof sketch.** Reading is brought down to the text by `Holds.reads_iff`. The first clause is then
`ofText_eq_ok_iff`, the second one invariance under changes of the layout, the third one
`Means.null` and `Means.of_null` read on members, and the last one the reading of a text that is
written token by token. -/
theorem meaning_of_object (hholds : Holds world path text) :
    (∀ entries, IsObject text entries →
      ∀ layer, Reads world path layer ↔ Means entries layer) ∧
    (∀ text' world' path', Relation.EqvGen Relaid text text' → Holds world' path' text' →
      ∀ layer, Reads world path layer ↔ Reads world' path' layer) ∧
    (∀ before member after text' world' path', member.value = .null →
      IsWritten text (before ++ member :: after) → IsWritten text' (before ++ after) →
      Holds world' path' text' →
      ∀ layer, Reads world path layer ↔
        (∃ field : Field, member.name = field.key) ∧
          member.name ∉ (before ++ after).map Member.name ∧ Reads world' path' layer) ∧
    (∀ (keyQuote? : Option Char) (quote : Char) (pattern : Pattern) (n : ℕ),
      (∀ quote ∈ keyQuote?, IsQuote quote) → IsQuote quote → n ≤ 2 ^ 53 →
      Spelled quote (escaped quote pattern.text.toList) (codePoints pattern.text.toList) ∧
      ∀ body, Spelled quote body (codePoints pattern.text.toList) →
        (∀ world' path',
          world'.fs.read path' = .ok (pack (Utf8.encode (written keyQuote? quote body n))) →
          Reads world' path' ⟨some pattern, some (UInt64.ofNat n)⟩) ∧
        (Relation.EqvGen Relaid (written keyQuote? quote body n) text →
          Reads world path ⟨some pattern, some (UInt64.ofNat n)⟩)) := by
  refine ⟨?_, ?_, ?_, ?_⟩
  · intro entries hobject layer
    rw [hholds.reads_iff]
    exact ofText_eq_ok_iff hobject
  · intro text' world' path' hrelaid hholds' layer
    rw [hholds.reads_iff, hholds'.reads_iff]
    exact ofText_of_eqvGen hrelaid
  · intro before member after text' world' path' hnull hwritten hwritten' hholds' layer
    rw [hholds.reads_iff, hholds'.reads_iff]
    exact ofText_of_null hnull hwritten hwritten'
  · intro keyQuote? quote pattern n hkey hquote hn
    refine ⟨spelled_escaped hquote _, fun body hbody => ⟨?_, ?_⟩⟩
    · intro world' path' hread
      refine (holds_of_encode hread).reads_iff.mpr ?_
      exact ofText_of_written hkey hquote hbody hn (.refl _)
    · intro hrelaid
      exact hholds.reads_iff.mpr (ofText_of_written hkey hquote hbody hn hrelaid)

/-- The settings `*.java` and 4, with the members in another order, blanks, a comment, one key between
quotes, and a comma behind the last member. -/
theorem meaning_of_object_relaid :
    Reads (holding "\x7b \"spaces\": 4, pattern: '*.java', \x7d // Java") (utf8 "config.json5")
      ⟨some defaultPattern, some 4⟩ := by
  have hholds : Holds (holding "\x7b \"spaces\": 4, pattern: '*.java', \x7d // Java")
      (utf8 "config.json5") "\x7b \"spaces\": 4, pattern: '*.java', \x7d // Java".toList :=
    ⟨_, rfl, by decide +kernel⟩
  obtain ⟨-, -, -, hwritten⟩ := meaning_of_object hholds
  obtain ⟨hescaped, hreads⟩ := hwritten (some '"') '"' defaultPattern 4 (by simp [IsQuote]) (.inl rfl)
    (by decide)
  have hrelaid : IsWritten "\x7b \"spaces\": 4, pattern: '*.java', \x7d // Java".toList
      [⟨keyToken (some '"') .spaces, Field.spaces.key, [.numeral (.ofNat 4)], .numeral (.ofNat 4),
          keyName?_keyToken _ _, .numeral⟩,
        ⟨keyToken none .pattern, Field.pattern.key, [.text (codePoints "*.java".toList)],
          .text (codePoints "*.java".toList), keyName?_keyToken _ _, .text⟩] :=
    ⟨true, by decide +kernel⟩
  refine (hreads _ hescaped).2
    (.rel _ _ (.members (isWritten_written ?_ (.inl rfl) hescaped 4) hrelaid ?_))
  · simp [IsQuote]
  · exact List.Perm.swap _ _ []

end Config

end Detab
