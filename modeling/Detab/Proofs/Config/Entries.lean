import Detab.Config.Reader
import Detab.Proofs.Text.Encoding
import Mathlib.Tactic.Common

set_option relaxedAutoImplicit false
set_option autoImplicit false

/-!
# Taking the entries of an object

The entries of an object are taken one after the other, and the first error wins. This file says once
what taking an entry can do, and from it what taking all of them comes to when none fails.

## Main definitions

* `Detab.Layer.Field.key`, `Detab.Layer.Field.read` — how a setting is named, and how its value is read.
* `Detab.Layer.Gives` — what some entries give.

## Main results

* `Detab.Layer.take_eq_ok_iff` — **taking one entry.**
* `Detab.Layer.takeAll_eq_ok_iff` — **taking all entries.**

## Design

The two settings have values of different types. `Field.Setting` is the type of each, so that taking an
entry is stated once for both.
-/

namespace Detab

/-! ## Texts -/

namespace Json5

/-- The code points of a text of characters are read back as these characters, since a character is
never a surrogate. -/
lemma characters?_codePoints (text : List Char) : characters? (codePoints text) = some text := by
  induction text with
  | nil => rfl
  | cons c text ih =>
    have hvalid : c.toNat.isValidChar := c.valid
    rw [codePoints, List.map_cons, characters?, if_pos hvalid]
    change (characters? (codePoints text)).map _ = _
    rw [ih, Option.map_some, Char.ofNat_toNat]

/-- Conversely, content that can be read as characters consists of their code points and nothing
else. -/
lemma eq_codePoints_of_characters? {content : CodePoints} {text : List Char}
    (h : characters? content = some text) : content = codePoints text := by
  fun_induction characters? content generalizing text with
  | case1 =>
    obtain rfl := Option.some.inj h
    rfl
  | case2 n rest hvalid ih =>
    obtain ⟨tail, htail, rfl⟩ := Option.map_eq_some_iff.mp h
    rw [ih htail, codePoints, codePoints, List.map_cons, Utf8.toNat_ofNat hvalid]
  | case3 => simp at h

end Json5

namespace Layer

open Json5

variable {value : Value}

/-- Two readings one after the other succeed if the first one does and the second one does with its
result. -/
lemma bind_eq_ok_iff {α β : Type} {x : Except Error α} {f : α → Except Error β} {b : β} :
    (x >>= f) = .ok b ↔ ∃ a, x = .ok a ∧ f a = .ok b := by
  cases x <;> simp [bind, Except.bind]

/-- **A text is read** exactly when its content is that of some characters; a lone surrogate cannot
be read. -/
lemma readText_eq_ok_iff {content : CodePoints} {text : List Char} :
    readText content = .ok text ↔ content = codePoints text := by
  unfold readText
  constructor
  · intro h
    split at h
    · rename_i text' htext
      obtain rfl := Except.ok.inj h
      exact eq_codePoints_of_characters? htext
    · simp at h
  · rintro rfl
    rw [characters?_codePoints]

/-! ## Entries -/

namespace Field

/-- The name of a setting as a key. -/
def key (field : Field) : CodePoints :=
  codePoints field.name.toList

/-- What a setting is. -/
def Setting : Field → Type
  | .pattern => Pattern
  | .spaces => Width

/-- The setting that a value gives, or none for null. -/
def read : (field : Field) → Value → Except Error (Option field.Setting)
  | .pattern => readPattern
  | .spaces => readWidth

/-- The keys of two settings are different code points, so a key tells which setting is meant. -/
lemma key_inj {field field' : Field} (h : field.key = field'.key) : field = field' := by
  revert h
  cases field <;> cases field' <;> decide

/-- A name is the name of a setting exactly when it is spelled as this setting is; there are no
other spellings. -/
lemma ofName?_eq_some_iff {name : List Char} {field : Field} :
    Field.ofName? name = some field ↔ name = field.name.toList := by
  cases field <;> unfold Field.ofName? <;> split_ifs <;> simp_all [Field.name]

end Field

namespace Given

variable {given given' : Given} {field : Field}

/-- The setting as it was given, if it was. -/
def get (given : Given) : (field : Field) → Option (Option field.Setting)
  | .pattern => given.pattern
  | .spaces => given.width

/-- One more setting. -/
def set (given : Given) : (field : Field) → Option field.Setting → Given
  | .pattern, pattern => { given with pattern := some pattern }
  | .spaces, width => { given with width := some width }

/-- A setting that has just been given is the one that is found. -/
@[simp] lemma get_set_self (given : Given) (field : Field) (setting : Option field.Setting) :
    (given.set field setting).get field = some setting := by
  cases field <;> rfl

/-- Giving one setting leaves the others as they were. -/
lemma get_set_of_ne {field' : Field} (h : field' ≠ field) (given : Given)
    (setting : Option field.Setting) : (given.set field setting).get field' = given.get field' := by
  cases field <;> cases field' <;> first | rfl | exact absurd rfl h

/-- Two records of what was given are equal when every setting is the same in both. -/
lemma ext_get (h : ∀ field, given'.get field = given.get field) : given' = given := by
  obtain ⟨pattern, width⟩ := given
  obtain ⟨pattern', width'⟩ := given'
  obtain rfl : pattern' = pattern := h .pattern
  obtain rfl : width' = width := h .spaces
  rfl

end Given

variable {given given' : Given} {key : CodePoints} {entries : List (CodePoints × Value)}
  {layer : Layer}

/-- **Taking one entry:** its key has to name a setting that was not given before, and its value has
to give one.

**Proof sketch.** Taking is a chain of tests: the key has to be a text, the text the name of a
setting, the setting not given yet, and its value one that can be read. Each test is inverted by its
own lemma; the two settings are treated alike. -/
lemma take_eq_ok_iff :
    given.take key value = .ok given' ↔
      ∃ field : Field, key = field.key ∧ given.get field = none ∧
        ∃ setting, field.read value = .ok setting ∧ given' = given.set field setting := by
  unfold Given.take
  constructor
  · intro h
    obtain ⟨name, hname, htake⟩ := bind_eq_ok_iff.mp h
    obtain rfl := readText_eq_ok_iff.mp hname
    split at htake
    · simp at htake
    · rename_i hfield
      obtain rfl := Field.ofName?_eq_some_iff.mp hfield
      split at htake
      · simp at htake
      · rename_i hnone
        obtain ⟨pattern, hpattern, hsame⟩ := bind_eq_ok_iff.mp htake
        exact ⟨.pattern, rfl, Option.not_isSome_iff_eq_none.mp hnone, pattern, hpattern,
          (Except.ok.inj hsame).symm⟩
    · rename_i hfield
      obtain rfl := Field.ofName?_eq_some_iff.mp hfield
      split at htake
      · simp at htake
      · rename_i hnone
        obtain ⟨width, hwidth, hsame⟩ := bind_eq_ok_iff.mp htake
        exact ⟨.spaces, rfl, Option.not_isSome_iff_eq_none.mp hnone, width, hwidth,
          (Except.ok.inj hsame).symm⟩
  · rintro ⟨field, rfl, hnone, setting, hsetting, rfl⟩
    refine bind_eq_ok_iff.mpr ⟨field.name.toList, readText_eq_ok_iff.mpr rfl, ?_⟩
    rw [Field.ofName?_eq_some_iff.mpr rfl]
    cases field with
    | pattern =>
      have hnone' : given.pattern = none := hnone
      simp only [hnone', Option.isSome_none, Bool.false_eq_true, if_false]
      exact bind_eq_ok_iff.mpr ⟨setting, hsetting, rfl⟩
    | spaces =>
      have hnone' : given.width = none := hnone
      simp only [hnone', Option.isSome_none, Bool.false_eq_true, if_false]
      exact bind_eq_ok_iff.mpr ⟨setting, hsetting, rfl⟩

/-- What some entries give, when some settings were given before. -/
structure Gives (given : Given) (entries : List (CodePoints × Value)) (given' : Given) : Prop where
  known : ∀ key ∈ entries.map Prod.fst, ∃ field : Field, key = field.key
  once : (entries.map Prod.fst).Nodup
  fresh : ∀ field, (given.get field).isSome → field.key ∉ entries.map Prod.fst
  present : ∀ field value, (Field.key field, value) ∈ entries →
    ∃ setting, field.read value = .ok setting ∧ given'.get field = some setting
  absent : ∀ field : Field, field.key ∉ entries.map Prod.fst → given'.get field = given.get field

namespace Gives

variable {field : Field} {setting : Option field.Setting}

/-- Without entries nothing is given beyond what was given before. -/
lemma nil_iff : Gives given [] given' ↔ given' = given := by
  constructor
  · intro h
    exact Given.ext_get fun field => h.absent field (by simp)
  · rintro rfl
    exact ⟨by simp, by simp, by simp, by simp, fun _ _ => rfl⟩

/-- An entry before others, which are taken after it.

**Proof sketch.** Clause by clause. The setting of the first entry is given when the others are
taken, so none of them names it; for all other settings nothing has changed. -/
lemma cons (hnone : given.get field = none) (hsetting : field.read value = .ok setting)
    (h : Gives (given.set field setting) entries given') :
    Gives given ((field.key, value) :: entries) given' := by
  have hself : field.key ∉ entries.map Prod.fst := h.fresh field (by simp)
  refine ⟨?_, ?_, ?_, ?_, ?_⟩
  · intro key hkey
    rcases List.mem_cons.mp hkey with rfl | hkey
    · exact ⟨field, rfl⟩
    · exact h.known key hkey
  · exact List.nodup_cons.mpr ⟨hself, h.once⟩
  · intro field' hsome
    have hne : field' ≠ field := by
      rintro rfl
      simp [hnone] at hsome
    have hrest := h.fresh field' (by rwa [Given.get_set_of_ne hne])
    exact List.not_mem_cons_of_ne_of_not_mem (fun heq => hne (Field.key_inj heq)) hrest
  · intro field' value' hmem
    rcases List.mem_cons.mp hmem with heq | hmem
    · obtain ⟨hkey, rfl⟩ := Prod.mk.inj heq
      obtain rfl := Field.key_inj hkey
      exact ⟨setting, hsetting, by rw [h.absent field' hself, Given.get_set_self]⟩
    · exact h.present field' value' hmem
  · intro field' hkey
    have hne := List.ne_of_not_mem_cons hkey
    rw [h.absent field' (List.not_mem_of_not_mem_cons hkey),
      Given.get_set_of_ne fun heq => hne (congrArg Field.key heq)]

/-- The entries behind the first one, once that is taken.

**Proof sketch.** Clause by clause. The key of the first entry is not among the others, so its
setting is what the first entry gives, and all other settings come from the others. -/
lemma tail (hsetting : field.read value = .ok setting)
    (h : Gives given ((field.key, value) :: entries) given') :
    Gives (given.set field setting) entries given' := by
  obtain ⟨hself, honce⟩ := List.nodup_cons.mp h.once
  refine ⟨fun key hkey => h.known key (List.mem_cons_of_mem _ hkey), honce, ?_, ?_, ?_⟩
  · intro field' hsome
    by_cases heq : field' = field
    · subst heq
      exact hself
    · rw [Given.get_set_of_ne heq] at hsome
      exact fun hkey => h.fresh field' hsome (List.mem_cons_of_mem _ hkey)
  · exact fun field' value' hmem => h.present field' value' (List.mem_cons_of_mem _ hmem)
  · intro field' hkey
    by_cases heq : field' = field
    · subst heq
      obtain ⟨setting', hsetting', hget⟩ := h.present field' value List.mem_cons_self
      obtain rfl := Except.ok.inj (hsetting.symm.trans hsetting')
      rw [hget, Given.get_set_self]
    · rw [Given.get_set_of_ne heq]
      exact h.absent field'
        (List.not_mem_cons_of_ne_of_not_mem (fun hsame => heq (Field.key_inj hsame)) hkey)

end Gives

/-- **Taking all entries.**

**Proof sketch.** Induction on the entries. One is taken by `take_eq_ok_iff`; `Gives.cons` puts it
in front of what the others give, and `Gives.tail` takes it off again. -/
lemma takeAll_eq_ok_iff : given.takeAll entries = .ok given' ↔ Gives given entries given' := by
  induction entries generalizing given with
  | nil =>
    rw [Gives.nil_iff, Given.takeAll]
    exact ⟨fun h => (Except.ok.inj h).symm, fun h => congrArg Except.ok h.symm⟩
  | cons entry rest ih =>
    obtain ⟨key, value⟩ := entry
    rw [Given.takeAll, bind_eq_ok_iff]
    constructor
    · rintro ⟨next, htake, hrest⟩
      obtain ⟨field, rfl, hnone, setting, hsetting, rfl⟩ := take_eq_ok_iff.mp htake
      exact (ih.mp hrest).cons hnone hsetting
    · intro h
      obtain ⟨field, rfl⟩ := h.known key List.mem_cons_self
      obtain ⟨setting, hsetting, -⟩ := h.present field value List.mem_cons_self
      have hnone : given.get field = none := by
        by_contra hsome
        exact h.fresh field (Option.isSome_iff_ne_none.mpr hsome) List.mem_cons_self
      exact ⟨_, take_eq_ok_iff.mpr ⟨field, rfl, hnone, setting, hsetting, rfl⟩,
        ih.mpr (h.tail hsetting)⟩

end Layer

end Detab
