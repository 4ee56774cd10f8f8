import Detab.Json5.Token
import Mathlib.Tactic.Common
import Mathlib.Tactic.IntervalCases

set_option relaxedAutoImplicit false
set_option autoImplicit false

/-!
# Where a token ends

A token is read as far as it goes, and some tokens look a few characters ahead of where they end. This
file shows that a token that ends somewhere also ends there when the text behind it is broken up by a
blank or a comment, there or further on.

## Main definitions

* `Detab.Json5.isBreak`, `Detab.Json5.Parted` — a text that agrees with another one up to a break.
* `Detab.Json5.Ends` — what is found at the head of a text ends at a place, whatever is broken up
  behind it.
* `Detab.Json5.Spelled` — what may stand between quotes, and the content that it spells.

## Main results

* `Detab.Json5.readText?_eq_some_iff` — **what is read up to a closing quote.**
* `Detab.Json5.ends_readWord`, `Detab.Json5.Numeral.ends_read?`, `Detab.Json5.ends_readToken?` — **a
  token ends at the same place** in a text that is broken up behind it.
-/

namespace Detab.Json5

/-! ## Breaks -/

/-- The characters that begin what may stand between tokens. -/
def isBreak (c : Char) : Bool :=
  isBlank c || c = '/'

/-- All of them. -/
def breaks : List Char :=
  ['/', '\n', '\r', '\u2028', '\u2029', '\t', '\x0b', '\x0c', ' ', '\u00a0', '\ufeff', '\u1680',
    '\u2000', '\u2001', '\u2002', '\u2003', '\u2004', '\u2005', '\u2006', '\u2007', '\u2008',
    '\u2009', '\u200a', '\u202f', '\u205f', '\u3000']

/-- The spaces of general punctuation follow one another, and all of them can stand between tokens.
-/
lemma mem_breaks_of_le {c : Char} (hlow : '\u2000' ≤ c) (hhigh : c ≤ '\u200a') : c ∈ breaks := by
  have hlow' : 0x2000 ≤ c.toNat := hlow
  have hhigh' : c.toNat ≤ 0x200A := hhigh
  rw [← Char.ofNat_toNat c]
  interval_cases c.toNat <;> decide

/-- Every character that can begin what stands between tokens is in the list of them, so facts
about all of them can be computed. -/
lemma mem_breaks {c : Char} (h : isBreak c = true) : c ∈ breaks := by
  by_cases hrange : '\u2000' ≤ c ∧ c ≤ '\u200a'
  · exact mem_breaks_of_le hrange.1 hrange.2
  · simp only [isBreak, isBlank, isLineEnd, Bool.or_eq_true, decide_eq_true_eq, Bool.and_eq_true,
      hrange, or_false] at h
    simp only [breaks, List.mem_cons]
    grind

/-- What none of the breaks has does not hold at a break. -/
lemma eq_false_of_isBreak {p : Char → Bool} (hall : breaks.any p = false) {c : Char}
    (h : isBreak c = true) : p c = false := by
  simpa using List.any_eq_false.mp hall c (mem_breaks h)

/-- No token goes on at a break. -/
lemma not_isWordPart_of_isBreak {c : Char} (h : isBreak c = true) : isWordPart c = false :=
  eq_false_of_isBreak (by decide +kernel) h

/-- No such character is a digit. -/
lemma not_isDigit_of_isBreak {c : Char} (h : isBreak c = true) : Numeral.isDigit c = false :=
  eq_false_of_isBreak (by decide +kernel) h

/-- No such character is a hexadecimal digit. -/
lemma hexDigit?_of_isBreak {c : Char} (h : isBreak c = true) : hexDigit? c = none := by
  have hnone : (hexDigit? c).isSome = false :=
    eq_false_of_isBreak (p := fun c => (hexDigit? c).isSome) (by decide +kernel) h
  simpa using hnone

/-- **A text that agrees with another one up to a break.** -/
inductive Parted : List Char → List Char → Prop
  | here {text rest : List Char} {c : Char} : isBreak c = true → Parted text (c :: rest)
  | there {text rest : List Char} {c : Char} : Parted text rest → Parted (c :: text) (c :: rest)

namespace Parted

variable {text rest after : List Char}

/-- What two texts have in common can be put in front of both. -/
lemma append (before : List Char) (h : Parted text rest) :
    Parted (before ++ text) (before ++ rest) := by
  induction before with
  | nil => exact h
  | cons c before ih => exact .there ih

/-- What comes before the break is the same in both. -/
lemma exists_of_append (before : List Char) (h : Parted text (before ++ after))
    (hbefore : before.any isBreak = false) : ∃ rest, text = before ++ rest := by
  induction before generalizing text with
  | nil => exact ⟨text, rfl⟩
  | cons c before ih =>
    rw [List.any_cons, Bool.or_eq_false_iff] at hbefore
    cases h with
    | here hc => simp [hbefore.1] at hc
    | there h =>
      obtain ⟨rest, rfl⟩ := ih h hbefore.2
      exact ⟨rest, rfl⟩

/-- Where no text with a certain beginning stands, none stands in what is broken up there or further
on. -/
lemma ne_append (before : List Char) (h : Parted text rest)
    (hbefore : before.any isBreak = false) (hne : ∀ tail, text ≠ before ++ tail) :
    ∀ tail, rest ≠ before ++ tail := by
  rintro tail rfl
  obtain ⟨tail', htail'⟩ := h.exists_of_append before hbefore
  exact hne tail' htail'

/-- A test that fails at the head of one text and at every break fails at the head of the other one.
-/
lemma head_eq_false {p : Char → Bool} (h : Parted text rest) (hp : ∀ c ∈ text.head?, p c = false)
    (hbreak : ∀ c, isBreak c = true → p c = false) : ∀ c ∈ rest.head?, p c = false := by
  cases h with
  | here hc => simpa using hbreak _ hc
  | there h => simpa using hp

end Parted

/-- What `read` finds at the head of a text ends before `rest`, also where the text is broken up
behind it; `result after` is what is found when `after` comes next. -/
def Ends {α : Type} (read : List Char → α) (result : List Char → α) (text rest : List Char) : Prop :=
  ∃ used, text = used ++ rest ∧ ∀ after, Parted rest after → read (used ++ after) = result after

/-- Where a run of characters ends, it ends in a text that is broken up behind it.

**Proof sketch.** The run ends where its test fails, or where the text does; the other text goes on
with something else for which the test fails. -/
lemma span_of_parted {p : Char → Bool} (hbreak : ∀ c, isBreak c = true → p c = false)
    (text : List Char) {rest : List Char} (h : Parted (text.dropWhile p) rest) :
    (text.takeWhile p ++ rest).takeWhile p = text.takeWhile p ∧
      (text.takeWhile p ++ rest).dropWhile p = rest := by
  have hrun : ∀ c ∈ text.takeWhile p, p c = true := by
    intro c hc
    exact List.all_eq_true.mp List.all_takeWhile c hc
  have hend : ∀ c ∈ (text.dropWhile p).head?, p c = false := by
    intro c hc
    have hnot := List.head?_dropWhile_not p text
    rw [Option.mem_def.mp hc] at hnot
    simpa using hnot
  have hrest := h.head_eq_false hend hbreak
  rw [List.takeWhile_append_of_pos hrun, List.dropWhile_append_of_pos hrun]
  cases rest with
  | nil => exact ⟨List.append_nil _, rfl⟩
  | cons c rest =>
    have hc : p c = false := hrest c rfl
    simp [hc]

/-! ## Texts between quotes -/

/-- **What may stand between quotes,** and the content that it spells. -/
inductive Spelled (quote : Char) : List Char → CodePoints → Prop
  | nil : Spelled quote [] []
  | pair {a b : Char} {n : Nat} {body : List Char} {content : CodePoints} :
      hexPair? a b = some n → Spelled quote body content →
        Spelled quote ('\\' :: 'x' :: a :: b :: body) (n :: content)
  | quad {a b c d : Char} {n : Nat} {body : List Char} {content : CodePoints} :
      hexQuad? a b c d = some n → Spelled quote body content →
        Spelled quote ('\\' :: 'u' :: a :: b :: c :: d :: body) (n :: content)
  | newLine {body : List Char} {content : CodePoints} :
      Spelled quote body content → Spelled quote ('\\' :: '\r' :: '\n' :: body) content
  | lineEnd {c : Char} {body : List Char} {content : CodePoints} :
      isLineEnd c = true → Spelled quote body content → Spelled quote ('\\' :: c :: body) content
  | escape {c : Char} {n : Nat} {body : List Char} {content : CodePoints} :
      isLineEnd c = false → simpleEscape? c = some n → Spelled quote body content →
        Spelled quote ('\\' :: c :: body) (n :: content)
  | plain {c : Char} {body : List Char} {content : CodePoints} :
      c ≠ quote → c ≠ '\\' → isLineEnd c = false → Spelled quote body content →
        Spelled quote (c :: body) (c.toNat :: content)

/-- What stands between quotes does not begin with a newline. -/
lemma Spelled.head_ne {quote : Char} {body rest : List Char} {content : CodePoints}
    (h : Spelled quote body content) (hquote : quote ≠ '\n') :
    ∀ tail, body ++ quote :: rest ≠ '\n' :: tail := by
  intro tail heq
  cases h with
  | nil => exact hquote (List.cons.inj heq).1
  | plain _ _ hend _ =>
    obtain rfl := (List.cons.inj heq).1
    simp [isLineEnd] at hend
  | _ => simp at heq

/-- What is read up to a closing quote may stand there.

**Proof sketch.** Along the recursion of the reader, with one clause of what may stand between
quotes for each of its cases that succeed. -/
lemma exists_spelled_of_readText? {quote : Char} {text rest : List Char} {content : CodePoints}
    (h : readText? quote text = some (content, rest)) :
    ∃ body, text = body ++ quote :: rest ∧ Spelled quote body content := by
  fun_induction readText? quote text generalizing content rest with
  | case2 a b tail n content' rest' htail hpair ih =>
    obtain ⟨rfl, rfl⟩ : n :: content' = content ∧ rest' = rest := by simpa using h
    obtain ⟨body, rfl, hbody⟩ := ih htail
    exact ⟨_, rfl, .pair hpair hbody⟩
  | case4 a b c d tail n content' rest' htail hquad ih =>
    obtain ⟨rfl, rfl⟩ : n :: content' = content ∧ rest' = rest := by simpa using h
    obtain ⟨body, rfl, hbody⟩ := ih htail
    exact ⟨_, rfl, .quad hquad hbody⟩
  | case6 tail ih =>
    obtain ⟨body, rfl, hbody⟩ := ih h
    exact ⟨_, rfl, .newLine hbody⟩
  | case7 c tail _ _ _ hend ih =>
    obtain ⟨body, rfl, hbody⟩ := ih h
    exact ⟨_, rfl, .lineEnd hend hbody⟩
  | case8 c tail _ _ _ hend n content' rest' htail hescape ih =>
    obtain ⟨rfl, rfl⟩ : n :: content' = content ∧ rest' = rest := by simpa using h
    obtain ⟨body, rfl, hbody⟩ := ih htail
    exact ⟨_, rfl, .escape (by simpa using hend) hescape hbody⟩
  | case10 tail =>
    obtain ⟨rfl, rfl⟩ : [] = content ∧ tail = rest := by simpa using h
    exact ⟨[], rfl, .nil⟩
  | case12 c tail _ _ _ _ hquote hplain content' rest' htail ih =>
    obtain ⟨rfl, rfl⟩ : c.toNat :: content' = content ∧ rest' = rest := by simpa using h
    obtain ⟨body, rfl, hbody⟩ := ih htail
    obtain ⟨hslash, hend⟩ : c ≠ '\\' ∧ isLineEnd c = false := by simpa using hplain
    exact ⟨_, rfl, .plain hquote hslash hend hbody⟩
  | _ => simp at h

/-- What may stand between quotes is read up to the closing quote.

**Proof sketch.** Induction on the spelling. Each clause is one equation of the reader, and excludes
the ones that come before it. -/
lemma Spelled.readText? {quote : Char} (hquote : quote = '"' ∨ quote = '\'') {body : List Char}
    {content : CodePoints} (h : Spelled quote body content) (rest : List Char) :
    readText? quote (body ++ quote :: rest) = some (content, rest) := by
  have hbare : quote ≠ '\n' ∧ quote ≠ '\\' := by rcases hquote with rfl | rfl <;> decide
  induction h with
  | nil =>
    rw [List.nil_append, readText?.eq_6]
    · simp
    all_goals simp [hbare.2]
  | pair hpair _ ih =>
    rw [List.cons_append, List.cons_append, List.cons_append, List.cons_append, readText?.eq_2,
      hpair, ih]
  | quad hquad _ ih =>
    simp only [List.cons_append]
    rw [readText?.eq_3, hquad, ih]
  | newLine _ ih =>
    simp only [List.cons_append]
    rw [readText?.eq_4, ih]
  | @lineEnd c body content hend hbody ih =>
    simp only [List.cons_append]
    rw [readText?.eq_5, if_pos hend, ih]
    · rintro a b tail rfl
      simp [isLineEnd] at hend
    · rintro a b c d tail rfl
      simp [isLineEnd] at hend
    · intro tail _ htail
      exact hbody.head_ne hbare.1 tail htail
  | @escape c n body content hend hescape _ ih =>
    simp only [List.cons_append]
    rw [readText?.eq_5, if_neg (by simp [hend]), hescape, ih]
    · rintro a b tail rfl
      simp [simpleEscape?] at hescape
    · rintro a b c d tail rfl
      simp [simpleEscape?] at hescape
    · rintro tail rfl
      simp [isLineEnd] at hend
  | @plain c body content hne hslash hend _ ih =>
    rw [List.cons_append, readText?.eq_6]
    · simp [hne, hslash, hend, ih]
    all_goals simp [hslash]

/-- **What is read up to a closing quote** is a text that may stand there. -/
lemma readText?_eq_some_iff {quote : Char} (hquote : quote = '"' ∨ quote = '\'')
    {text rest : List Char} {content : CodePoints} :
    readText? quote text = some (content, rest) ↔
      ∃ body, text = body ++ quote :: rest ∧ Spelled quote body content := by
  constructor
  · exact exists_spelled_of_readText?
  · rintro ⟨body, rfl, h⟩
    exact h.readText? hquote rest

/-! ## Words -/

/-- No hexadecimal digit is a break. -/
lemma not_isBreak_of_hexDigit? {c : Char} {n : Nat} (h : hexDigit? c = some n) :
    isBreak c = false := by
  by_contra hbreak
  simp [hexDigit?_of_isBreak (by simpa using hbreak)] at h

/-- The digits of an escape are no breaks. -/
lemma not_isBreak_of_hexQuad? {a b c d : Char} {n : Nat} (h : hexQuad? a b c d = some n) :
    [a, b, c, d].any isBreak = false := by
  simp only [hexQuad?, hexPair?, bind, Option.bind_eq_some_iff] at h
  obtain ⟨_, ⟨_, ha, _, hb, _⟩, _, ⟨_, hc, _, hd, _⟩, _⟩ := h
  simp [not_isBreak_of_hexDigit? ha, not_isBreak_of_hexDigit? hb, not_isBreak_of_hexDigit? hc,
    not_isBreak_of_hexDigit? hd]

/-- No part of a word is a backslash, so a word has been read in full when no escape comes. -/
lemma ne_backslash_of_isWordPart {c : Char} (h : isWordPart c = true) : c ≠ '\\' := by
  rintro rfl
  exact absurd h (by decide +kernel)

/-- Where no word begins, none begins in a text that is broken up there or further on.

**Proof sketch.** Along the cases of the reader. If a word, or an escape, could be read before the
break, all of it would be in the other text as well, where nothing is read. -/
lemma readWord_of_parted {text rest : List Char} (h : Parted text rest)
    (hnone : readWord text = ([], false, text)) : readWord rest = ([], false, rest) := by
  fun_cases readWord rest with
  | case1 a b c d tail n hquad =>
    -- the whole escape would be there before the break
    have hbefore : ['\\', 'u', a, b, c, d].any isBreak = false := by
      rw [List.any_cons, List.any_cons, not_isBreak_of_hexQuad? hquad]
      decide
    obtain ⟨tail', rfl⟩ := h.exists_of_append ['\\', 'u', a, b, c, d] hbefore
    simp [readWord, hquad] at hnone
  | case2 a b c d tail hquad => rfl
  | case3 c tail hnot hpart name escaped rest' htail =>
    have hc : isBreak c = false := by
      by_contra hbreak
      simp [not_isWordPart_of_isBreak (by simpa using hbreak)] at hpart
    obtain ⟨tail', rfl⟩ := h.exists_of_append [c] (by simp [hc])
    rw [List.singleton_append, readWord.eq_2 _ _ (by simp [ne_backslash_of_isWordPart hpart]),
      if_pos hpart] at hnone
    simp at hnone
  | case4 => rfl
  | case5 => rfl

/-- **A word ends at the same place** in a text that is broken up behind it.

**Proof sketch.** Along the recursion of the reader. Where the word ends, `readWord_of_parted` says
that it also ends in the other text. -/
lemma ends_readWord {text rest : List Char} {name : CodePoints} {escaped : Bool}
    (h : readWord text = (name, escaped, rest)) : Ends readWord (name, escaped, ·) text rest := by
  fun_induction readWord text generalizing name escaped rest with
  | case1 a b c d tail n hquad name' escaped' rest' htail ih =>
    obtain ⟨rfl, rfl, rfl⟩ : n :: name' = name ∧ true = escaped ∧ rest' = rest := by simpa using h
    obtain ⟨used, rfl, hused⟩ := ih htail
    refine ⟨'\\' :: 'u' :: a :: b :: c :: d :: used, rfl, fun after hafter => ?_⟩
    simp only [List.cons_append]
    rw [readWord.eq_1, hquad, hused after hafter]
  | case2 a b c d tail hquad =>
    obtain ⟨rfl, rfl, rfl⟩ := by simpa using h
    refine ⟨[], rfl, fun after hafter => ?_⟩
    exact readWord_of_parted hafter (by rw [readWord.eq_1, hquad])
  | case3 c tail hnot hpart name' escaped' rest' htail ih =>
    obtain ⟨rfl, rfl, rfl⟩ : c.toNat :: name' = name ∧ escaped' = escaped ∧ rest' = rest := by
      simpa using h
    obtain ⟨used, rfl, hused⟩ := ih htail
    refine ⟨c :: used, rfl, fun after hafter => ?_⟩
    rw [List.cons_append, readWord.eq_2 _ _ (by simp [ne_backslash_of_isWordPart hpart]),
      if_pos hpart, hused after hafter]
  | case4 c tail hnot hpart =>
    obtain ⟨rfl, rfl, rfl⟩ : [] = name ∧ false = escaped ∧ c :: tail = rest := by simpa using h
    refine ⟨[], rfl, fun after hafter => ?_⟩
    exact readWord_of_parted hafter (by rw [readWord.eq_2 _ _ hnot, if_neg hpart])
  | case5 =>
    obtain ⟨rfl, rfl, rfl⟩ : [] = name ∧ false = escaped ∧ [] = rest := by simpa using h
    exact ⟨[], rfl, fun after hafter => readWord_of_parted hafter rfl⟩

/-! ## Numerals -/

namespace Numeral

variable {text rest after : List Char} {sign : Option Sign} {exponent : Option Int}
  {whole : List Char} {magnitude : Magnitude}

/-- No digit is a break. -/
lemma not_isBreak_of_isDigit {c : Char} (h : isDigit c = true) : isBreak c = false := by
  by_contra hbreak
  simp [not_isDigit_of_isBreak (by simpa using hbreak)] at h

/-- What is read as a sign ends before the rest, whatever comes next. -/
lemma ends_readSign (h : readSign text = (sign, rest)) : Ends readSign (sign, ·) text rest := by
  fun_cases readSign text with
  | case1 tail =>
    obtain ⟨rfl, rfl⟩ : some .plus = sign ∧ tail = rest := by simpa [readSign] using h
    exact ⟨['+'], rfl, fun after _ => rfl⟩
  | case2 tail =>
    obtain ⟨rfl, rfl⟩ : some .minus = sign ∧ tail = rest := by simpa [readSign] using h
    exact ⟨['-'], rfl, fun after _ => rfl⟩
  | case3 text hplus hminus =>
    rw [readSign.eq_3 text hplus hminus] at h
    obtain ⟨rfl, rfl⟩ := Prod.mk.inj h
    refine ⟨[], rfl, fun after hafter => ?_⟩
    exact readSign.eq_3 after (hafter.ne_append ['+'] (by decide) hplus)
      (hafter.ne_append ['-'] (by decide) hminus)

/-- A sign before a digit is no break, and it is read before any other digit.

**Proof sketch.** By the sign: plus, minus, or none, and then the digit is no sign. -/
lemma exists_sign_of_readSign (h : readSign text = (sign, rest)) :
    ∃ before, text = before ++ rest ∧ before.any isBreak = false ∧
      ∀ d tail, isDigit d = true → readSign (before ++ d :: tail) = (sign, d :: tail) := by
  fun_cases readSign text with
  | case1 tail =>
    obtain ⟨rfl, rfl⟩ : some .plus = sign ∧ tail = rest := by simpa [readSign] using h
    exact ⟨['+'], rfl, by decide, fun d tail _ => rfl⟩
  | case2 tail =>
    obtain ⟨rfl, rfl⟩ : some .minus = sign ∧ tail = rest := by simpa [readSign] using h
    exact ⟨['-'], rfl, by decide, fun d tail _ => rfl⟩
  | case3 text hplus hminus =>
    rw [readSign.eq_3 text hplus hminus] at h
    obtain ⟨rfl, rfl⟩ := Prod.mk.inj h
    refine ⟨[], rfl, by simp, fun d tail hd => readSign.eq_3 _ ?_ ?_⟩
    · rintro tail' heq
      obtain rfl := (List.cons.inj heq).1
      exact absurd hd (by decide)
    · rintro tail' heq
      obtain rfl := (List.cons.inj heq).1
      exact absurd hd (by decide)

/-- What is read behind the mark of an exponent. -/
lemma readExponent_of_mark {e : Char} (he : e = 'e' ∨ e = 'E') (hsign : readSign text = (sign, rest)) :
    readExponent (e :: text) =
      if (rest.takeWhile isDigit).isEmpty then (none, e :: text)
      else (some (if sign = some .minus then -(exponentValue (rest.takeWhile isDigit) : Int)
        else exponentValue (rest.takeWhile isDigit)), rest.dropWhile isDigit) := by
  simp only [readExponent, he, if_true, hsign]

/-- Where there is no exponent, nothing is read. -/
lemma readExponent_of_none (h : readExponent text = (none, rest)) :
    readExponent text = (none, text) := by
  fun_cases readExponent text with
  | case1 => rfl
  | case2 e tail he sign tail' hsign digits hdigits =>
    rw [readExponent_of_mark he hsign, if_neg hdigits] at h
    simp at h
  | case3 => rfl
  | case4 => rfl

/-- An exponent is known by characters that are no breaks.

**Proof sketch.** Only one case of the reader gives a value: the mark of the exponent, perhaps a
sign, and a digit. None of them is a break. -/
lemma exists_before_of_readExponent {n : Int} (h : readExponent text = (some n, rest)) :
    ∃ before tail, text = before ++ tail ∧ before.any isBreak = false ∧
      ∀ tail, (readExponent (before ++ tail)).1.isSome = true := by
  fun_cases readExponent text with
  | case1 e tail he sign tail' hsign digits hdigits =>
    rw [readExponent_of_mark he hsign, if_pos hdigits] at h
    simp at h
  | case2 e tail he sign tail' hsign digits hdigits =>
    obtain ⟨before, rfl, hbefore, hread⟩ := exists_sign_of_readSign hsign
    obtain ⟨d, tail'', rfl, hd⟩ : ∃ d tail'', tail' = d :: tail'' ∧ isDigit d = true := by
      cases tail' with
      | nil => simp [digits] at hdigits
      | cons d tail'' =>
        refine ⟨d, tail'', rfl, ?_⟩
        by_contra hd
        simp [digits, hd] at hdigits
    have he' : isBreak e = false := by
      rcases he with rfl | rfl <;> decide
    refine ⟨e :: (before ++ [d]), tail'', by simp, ?_, fun tail => ?_⟩
    · rw [List.any_cons, List.any_append, List.any_cons, he', hbefore, not_isBreak_of_isDigit hd]
      rfl
    · have hlist : e :: (before ++ [d]) ++ tail = e :: (before ++ d :: tail) := by simp
      rw [hlist, readExponent_of_mark he (hread d tail hd), if_neg (by simp [hd])]
      rfl
  | case3 e tail he => simp [readExponent, he] at h
  | case4 => simp [readExponent] at h

/-- Where there is no exponent, there is none in a text that is broken up there or further on. -/
lemma readExponent_of_parted (h : Parted text after) (hnone : readExponent text = (none, text)) :
    readExponent after = (none, after) := by
  cases hread : readExponent after with
  | mk exponent rest =>
    cases exponent with
    | none => rw [← hread, readExponent_of_none hread]
    | some n =>
      obtain ⟨before, tail, rfl, hbefore, hsome⟩ := exists_before_of_readExponent hread
      obtain ⟨tail', rfl⟩ := h.exists_of_append before hbefore
      simpa [hnone] using hsome tail'

/-- What is read as an exponent ends before the rest, also when there is none.

**Proof sketch.** If there is no exponent, none is found in the other text either. If there is one,
its mark, its sign and its digits are there, and a break ends the digits. -/
lemma ends_readExponent (h : readExponent text = (exponent, rest)) :
    Ends readExponent (exponent, ·) text rest := by
  cases exponent with
  | none =>
    have hnone := readExponent_of_none h
    obtain ⟨-, rfl⟩ := Prod.mk.inj (hnone.symm.trans h)
    exact ⟨[], rfl, fun after hafter => readExponent_of_parted hafter hnone⟩
  | some n =>
    fun_cases readExponent text with
    | case2 e tail he sign tail' hsign digits hdigits =>
      rw [readExponent_of_mark he hsign, if_neg hdigits] at h
      obtain ⟨hvalue, rfl⟩ := Prod.mk.inj h
      obtain ⟨used, rfl, hused⟩ := ends_readSign hsign
      refine ⟨e :: (used ++ digits), by simp [digits], fun after hafter => ?_⟩
      obtain ⟨htake, hdrop⟩ := span_of_parted (fun c => not_isDigit_of_isBreak) tail' hafter
      have hsign' := hused (digits ++ after) (by simpa [digits] using hafter.append digits)
      rw [List.cons_append, List.append_assoc, readExponent_of_mark he hsign', htake, hdrop,
        if_neg hdigits, hvalue]
    | case1 e tail he sign tail' hsign digits hdigits =>
      rw [readExponent_of_mark he hsign, if_pos hdigits] at h
      simp at h
    | case3 e tail he => simp [readExponent, he] at h
    | case4 => simp [readExponent] at h

/-- What is read as the digits before the point ends before the rest. -/
lemma ends_readWhole (h : readWhole text = (whole, rest)) : Ends readWhole (whole, ·) text rest := by
  fun_cases readWhole text with
  | case1 tail =>
    obtain ⟨rfl, rfl⟩ : ['0'] = whole ∧ tail = rest := by simpa [readWhole] using h
    exact ⟨['0'], rfl, fun after _ => rfl⟩
  | case2 text hzero =>
    rw [readWhole.eq_2 text hzero] at h
    obtain ⟨rfl, rfl⟩ := Prod.mk.inj h
    refine ⟨text.takeWhile isDigit, by simp, fun after hafter => ?_⟩
    obtain ⟨htake, hdrop⟩ := span_of_parted (fun c => not_isDigit_of_isBreak) text hafter
    have hparted : Parted text (text.takeWhile isDigit ++ after) := by
      simpa using hafter.append (text.takeWhile isDigit)
    rw [readWhole.eq_2 _ (hparted.ne_append ['0'] (by decide) hzero), htake, hdrop]

/-- A decimal number ends before the rest: its three parts do, one after another.

**Proof sketch.** With a point or without one. The digits before it, the point, the digits behind it
and the exponent are each ended by what comes next, and the last one by the break. -/
lemma ends_readDecimal? (h : readDecimal? text = some (magnitude, rest)) :
    (∃ whole fraction exponent, magnitude = .decimal whole fraction exponent) ∧
      Ends readDecimal? (some ⟨magnitude, ·⟩) text rest := by
  fun_cases readDecimal? text with
  | case2 whole tail fraction hempty exponent tail' hexponent hwhole =>
    simp only [readDecimal?, hwhole] at h
    rw [if_neg hempty, hexponent] at h
    obtain ⟨rfl, rfl⟩ := Prod.mk.inj (Option.some.inj h)
    refine ⟨⟨_, _, _, rfl⟩, ?_⟩
    obtain ⟨before, rfl, hbefore⟩ := ends_readWhole hwhole
    obtain ⟨behind, hbehind, hread⟩ := ends_readExponent hexponent
    refine ⟨before ++ '.' :: (fraction ++ behind), ?_, fun after hafter => ?_⟩
    · simp only [List.append_assoc, List.cons_append]
      rw [← hbehind, List.takeWhile_append_dropWhile]
    · -- each part ends where the next one begins, and the last one at the break
      have hdigits : Parted (tail.dropWhile isDigit) (behind ++ after) :=
        hbehind ▸ hafter.append behind
      obtain ⟨htake, hdrop⟩ := span_of_parted (fun c => not_isDigit_of_isBreak) tail hdigits
      have hpoint : Parted ('.' :: tail) ('.' :: (fraction ++ (behind ++ after))) := by
        simpa [fraction] using (hdigits.append fraction).there
      have hwhole' := hbefore _ hpoint
      simp only [List.append_assoc, List.cons_append, readDecimal?, hwhole', fraction, htake, hdrop,
        hread after hafter]
      rw [if_neg hempty]
  | case4 whole tail hpoint hempty exponent tail' hexponent hwhole =>
    simp only [readDecimal?, hwhole] at h
    rw [if_neg hempty, hexponent] at h
    obtain ⟨rfl, rfl⟩ := Prod.mk.inj (Option.some.inj h)
    refine ⟨⟨_, _, _, rfl⟩, ?_⟩
    obtain ⟨before, rfl, hbefore⟩ := ends_readWhole hwhole
    obtain ⟨behind, rfl, hread⟩ := ends_readExponent hexponent
    refine ⟨before ++ behind, by simp, fun after hafter => ?_⟩
    have hbehind := hafter.append behind
    have hwhole' := hbefore _ hbehind
    have hpoint' := hbehind.ne_append ['.'] (by decide) hpoint
    simp only [List.append_assoc, readDecimal?, hwhole']
    split
    · rename_i heq
      exact absurd heq (hpoint' _)
    · rw [if_neg hempty, hread after hafter]
  | case1 whole tail fraction hempty hwhole =>
    simp only [readDecimal?, hwhole] at h
    rw [if_pos hempty] at h
    simp at h
  | case3 whole tail hpoint hempty hwhole => simp [readDecimal?, hwhole, hempty] at h

/-- A decimal numeral is read as one also in a text that is broken up behind it.

**Proof sketch.** What could be read otherwise, a number in base 16, infinity or no number, is known
by characters that are no breaks; so it would be in the other text as well, which is read as a
decimal number. -/
lemma readMagnitude?_of_parted {fraction : Option (List Char)}
    (h : readMagnitude? text = some (.decimal whole fraction exponent, rest))
    (hparted : Parted text after) : readMagnitude? after = readDecimal? after := by
  fun_cases readMagnitude? after with
  | case1 x tail digits hhex =>
    exfalso
    obtain ⟨d, tail', rfl, hd⟩ : ∃ d tail', tail = d :: tail' ∧ (hexDigit? d).isSome = true := by
      cases tail with
      | nil => simp [digits] at hhex
      | cons d tail' =>
        refine ⟨d, tail', rfl, ?_⟩
        by_contra hd
        simp [digits, hd] at hhex
    obtain ⟨n, hn⟩ := Option.isSome_iff_exists.mp hd
    have hbefore : ['0', x, d].any isBreak = false := by
      have hx : isBreak x = false := by rcases hhex.1 with rfl | rfl <;> decide
      simp [hx, not_isBreak_of_hexDigit? hn, show isBreak '0' = false by decide]
    obtain ⟨tail'', rfl⟩ := hparted.exists_of_append ['0', x, d] hbefore
    simp [readMagnitude?, hhex.1, hn] at h
  | case2 => rfl
  | case3 tail =>
    obtain ⟨tail', rfl⟩ := hparted.exists_of_append ['I', 'n', 'f', 'i', 'n', 'i', 't', 'y'] (by decide)
    simp [readMagnitude?] at h
  | case4 tail =>
    obtain ⟨tail', rfl⟩ := hparted.exists_of_append ['N', 'a', 'N'] (by decide)
    simp [readMagnitude?] at h
  | case5 => rfl

/-- A magnitude ends before the rest, whichever way it is written.

**Proof sketch.** By the ways in which a magnitude is written. Digits in base 16 are ended by a
break, the two words end by themselves, and a decimal number is the subject of `ends_readDecimal?`.
-/
lemma ends_readMagnitude? (h : readMagnitude? text = some (magnitude, rest)) :
    Ends readMagnitude? (some ⟨magnitude, ·⟩) text rest := by
  have hdecimal : readDecimal? text = some (magnitude, rest) →
      Ends readMagnitude? (some ⟨magnitude, ·⟩) text rest := by
    intro hdecimal
    obtain ⟨⟨whole, fraction, exponent, rfl⟩, used, rfl, hused⟩ := ends_readDecimal? hdecimal
    refine ⟨used, rfl, fun after hafter => ?_⟩
    rw [readMagnitude?_of_parted h (hafter.append used), hused after hafter]
  fun_cases readMagnitude? text with
  | case1 x tail digits hhex =>
    simp only [readMagnitude?] at h
    rw [if_pos hhex] at h
    obtain ⟨rfl, rfl⟩ := Prod.mk.inj (Option.some.inj h)
    refine ⟨'0' :: x :: digits, by simp [digits], fun after hafter => ?_⟩
    obtain ⟨htake, hdrop⟩ := span_of_parted (fun c hc => by simp [hexDigit?_of_isBreak hc]) tail hafter
    simp only [List.cons_append, readMagnitude?, digits, htake, hdrop]
    rw [if_pos hhex]
  | case2 x tail digits hhex =>
    refine hdecimal ?_
    simp only [readMagnitude?] at h
    rwa [if_neg hhex] at h
  | case3 tail =>
    obtain ⟨rfl, rfl⟩ : .infinity = magnitude ∧ tail = rest := by simpa [readMagnitude?] using h
    exact ⟨['I', 'n', 'f', 'i', 'n', 'i', 't', 'y'], rfl, fun after _ => rfl⟩
  | case4 tail =>
    obtain ⟨rfl, rfl⟩ : .nan = magnitude ∧ tail = rest := by simpa [readMagnitude?] using h
    exact ⟨['N', 'a', 'N'], rfl, fun after _ => rfl⟩
  | case5 text hzero hinfinity hnan =>
    refine hdecimal ?_
    rwa [readMagnitude?.eq_4 text hzero hinfinity hnan] at h

/-- **A numeral ends at the same place** in a text that is broken up behind it. -/
lemma ends_read? {numeral : Numeral} (h : read? text = some (numeral, rest)) :
    Ends read? (some ⟨numeral, ·⟩) text rest := by
  obtain ⟨tail, hsign⟩ : ∃ tail, readSign text = ((readSign text).1, tail) := ⟨_, rfl⟩
  generalize (readSign text).1 = sign at hsign
  simp only [read?, hsign, Option.map_eq_some_iff] at h
  obtain ⟨⟨magnitude, rest'⟩, hmagnitude, hsame⟩ := h
  obtain ⟨rfl, rfl⟩ := Prod.mk.inj hsame
  obtain ⟨before, rfl, hbefore⟩ := ends_readSign hsign
  obtain ⟨used, rfl, hused⟩ := ends_readMagnitude? hmagnitude
  refine ⟨before ++ used, by simp, fun after hafter => ?_⟩
  rw [List.append_assoc, read?, hbefore _ (hafter.append used)]
  simp only [hused after hafter, Option.map_some]

end Numeral

/-! ## Tokens -/

/-- No token begins with a break.

**Proof sketch.** A break is none of the characters that a token can begin with: it is no mark, no
quote, no part of a word, no sign and no digit. -/
lemma readToken?_of_isBreak {c : Char} (h : isBreak c = true) (rest : List Char) :
    readToken? c rest = none := by
  have hc : List.contains ['\x7b', '\x7d', '[', ']', ':', ',', '"', '\'', '+', '-', '0', 'I', 'N',
      '.', '\\'] c = false :=
    eq_false_of_isBreak (by decide +kernel) h
  rw [List.contains_eq_mem, decide_eq_false_iff_not] at hc
  simp only [List.mem_cons, List.not_mem_nil, or_false, not_or] at hc
  obtain ⟨h1, h2, h3, h4, h5, h6, h7, h8, hplus, hminus, hzero, hI, hN, hpoint, hslash⟩ := hc
  have hword : isWordStart c = false := by
    have hpart := not_isWordPart_of_isBreak h
    simp only [isWordPart, Bool.or_eq_false_iff] at hpart
    exact hpart.1.1.1
  rw [readToken?.eq_9 c rest h1 h2 h3 h4 h5 h6 h7 h8, if_neg (by simp [hword, hslash])]
  simp [Numeral.read?, Numeral.readSign, Numeral.readMagnitude?, Numeral.readDecimal?,
    Numeral.readWhole, hplus, hminus, hzero, hI, hN, hpoint, not_isDigit_of_isBreak h]

/-- What is read at the head of a text, but not at a break, takes in a character. -/
lemma Ends.exists_cons {α : Type} {read result : List Char → α} {c : Char} {text rest : List Char}
    (h : Ends read result (c :: text) rest) (hbreak : read ['/'] ≠ result ['/']) :
    ∃ used, text = used ++ rest ∧
      ∀ after, Parted rest after → read (c :: (used ++ after)) = result after := by
  obtain ⟨used, heq, hused⟩ := h
  cases used with
  | nil => exact absurd (hused ['/'] (.here (by decide))) hbreak
  | cons d used =>
    obtain ⟨rfl, rfl⟩ := List.cons.inj heq
    exact ⟨used, rfl, hused⟩

/-- A text between quotes ends with its closing quote, whatever comes behind it. -/
lemma ends_text {quote : Char} (hquote : quote = '"' ∨ quote = '\'') {text rest : List Char}
    {token : Token}
    (h : ((readText? quote text).map fun (content, rest) => (Token.text content, rest)) =
      some (token, rest)) :
    Ends (fun text => (readText? quote text).map fun (content, rest) => (Token.text content, rest))
      (some ⟨token, ·⟩) text rest := by
  obtain ⟨⟨content, rest'⟩, hread, hsame⟩ := Option.map_eq_some_iff.mp h
  obtain ⟨rfl, rfl⟩ := Prod.mk.inj hsame
  obtain ⟨body, rfl, hbody⟩ := (readText?_eq_some_iff hquote).mp hread
  refine ⟨body ++ [quote], by simp, fun after _ => ?_⟩
  simp only [List.append_assoc, List.singleton_append, hbody.readText? hquote after, Option.map_some]

/-- **A token ends at the same place** in a text that is broken up behind it.

**Proof sketch.** Along the cases of the reader: marks are one character, texts end at their quote,
and words and numbers have been dealt with above. -/
lemma ends_readToken? {c : Char} {text rest : List Char} {token : Token}
    (h : readToken? c text = some (token, rest)) :
    Ends (readToken? c) (some ⟨token, ·⟩) text rest := by
  fun_cases readToken? c text with
  | case1 | case2 | case3 | case4 | case5 | case6 =>
    obtain ⟨rfl, rfl⟩ := Prod.mk.inj (Option.some.inj h)
    exact ⟨[], rfl, fun after _ => rfl⟩
  | case7 => exact ends_text (.inl rfl) h
  | case8 => exact ends_text (.inr rfl) h
  | case9 c h1 h2 h3 h4 h5 h6 h7 h8 hword escaped rest' hread =>
    rw [readToken?.eq_9 c text h1 h2 h3 h4 h5 h6 h7 h8, if_pos hword, hread] at h
    simp at h
  | case10 c h1 h2 h3 h4 h5 h6 h7 h8 hword name escaped rest' hname hread =>
    -- the equation of the reader for any text that begins with this word
    have heq : ∀ text name' escaped' rest', readWord (c :: text) = (name', escaped', rest') →
        name' ≠ [] → readToken? c text = some (.word name' escaped', rest') := by
      intro text name' escaped' rest' hread hname
      rw [readToken?.eq_9 c text h1 h2 h3 h4 h5 h6 h7 h8, if_pos hword, hread]
      cases name' with
      | nil => exact absurd rfl hname
      | cons n name' => rfl
    obtain ⟨rfl, rfl⟩ := Prod.mk.inj (Option.some.inj ((heq _ _ _ _ hread hname).symm.trans h))
    obtain ⟨used, rfl, hused⟩ := (ends_readWord hread).exists_cons (by
      rw [show readWord ['/'] = ([], false, ['/']) by decide +kernel]
      simp [Ne.symm hname])
    exact ⟨used, rfl, fun after hafter => heq _ _ _ _ (hused after hafter) hname⟩
  | case11 c h1 h2 h3 h4 h5 h6 h7 h8 hword =>
    have heq : ∀ text, readToken? c text =
        (Numeral.read? (c :: text)).map fun found => (.numeral found.1, found.2) := by
      intro text
      rw [readToken?.eq_9 c text h1 h2 h3 h4 h5 h6 h7 h8, if_neg hword]
    rw [heq] at h
    obtain ⟨⟨numeral, rest'⟩, hread, hsame⟩ := Option.map_eq_some_iff.mp h
    obtain ⟨rfl, rfl⟩ := Prod.mk.inj hsame
    obtain ⟨used, rfl, hused⟩ := (Numeral.ends_read? hread).exists_cons (by
      rw [show Numeral.read? ['/'] = none by decide]
      simp)
    refine ⟨used, rfl, fun after hafter => ?_⟩
    rw [heq, hused after hafter, Option.map_some]

end Detab.Json5
