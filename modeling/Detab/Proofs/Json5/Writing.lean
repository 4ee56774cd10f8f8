import Detab.Proofs.Json5.Scanning

set_option relaxedAutoImplicit false
set_option autoImplicit false

/-!
# Writing tokens

How a word, a text between quotes and a natural number can be written, so that the same token is read
again.

## Main definitions

* `Detab.Json5.escaped` — a text as it can be put between quotes.
* `Detab.Json5.Numeral.ofNat` — a natural number as a numeral.

## Main results

* `Detab.Json5.readToken?_word`, `Detab.Json5.readToken?_text`,
  `Detab.Json5.exists_readToken?_ofNat` — the token is read again.
* `Detab.Json5.spelled_escaped` — **an escaped text spells the text.**
-/

namespace Detab.Json5

variable {rest : List Char}

/-! ## Words -/

/-- Parts of a word that are written before something else are read in full, and without escapes. -/
lemma readWord_append {word : List Char} (hword : ∀ c ∈ word, isWordPart c = true)
    (hrest : readWord rest = ([], false, rest)) :
    readWord (word ++ rest) = (codePoints word, false, rest) := by
  induction word with
  | nil => exact hrest
  | cons c word ih =>
    have hc := hword c List.mem_cons_self
    rw [List.cons_append, readWord.eq_2 _ _ (by simp [ne_backslash_of_isWordPart hc]), if_pos hc,
      ih fun c hc => hword c (List.mem_cons_of_mem _ hc)]
    rfl

/-- A word that is written before something else is read as the token of this word. -/
lemma readToken?_word {c : Char} {word : List Char} (hstart : isWordStart c = true)
    (hword : word.all isWordPart = true) (hrest : readWord rest = ([], false, rest)) :
    readToken? c (word ++ rest) = some (.word (codePoints (c :: word)) false, rest) := by
  have hhead : ['\x7b', '\x7d', '[', ']', ':', ',', '"', '\''].any isWordStart = false := by
    decide +kernel
  have hne : c ∉ ['\x7b', '\x7d', '[', ']', ':', ',', '"', '\''] :=
    fun hmem => List.any_eq_false.mp hhead c hmem hstart
  simp only [List.mem_cons, List.not_mem_nil, or_false, not_or] at hne
  obtain ⟨h1, h2, h3, h4, h5, h6, h7, h8⟩ := hne
  have hall : ∀ d ∈ c :: word, isWordPart d = true :=
    List.forall_mem_cons.mpr ⟨by simp [isWordPart, hstart], List.all_eq_true.mp hword⟩
  rw [readToken?.eq_9 c _ h1 h2 h3 h4 h5 h6 h7 h8, if_pos (by simp [hstart]), ← List.cons_append,
    readWord_append hall hrest]
  rfl

/-! ## Texts between quotes -/

/-- A text that is written between quotes is read as the token of its content. -/
lemma readToken?_text {quote : Char} (hquote : quote = '"' ∨ quote = '\'') {body : List Char}
    {content : CodePoints} (h : Spelled quote body content) (rest : List Char) :
    readToken? quote (body ++ quote :: rest) = some (.text content, rest) := by
  rcases hquote with rfl | rfl
  · exact congrArg (Option.map _) (h.readText? (.inl rfl) rest)
  · exact congrArg (Option.map _) (h.readText? (.inr rfl) rest)

/-- A text without quotes, backslashes and line ends spells itself. -/
lemma spelled_self {quote : Char} {text : List Char}
    (h : text.any (fun c => c = quote || c = '\\' || isLineEnd c) = false) :
    Spelled quote text (codePoints text) := by
  induction text with
  | nil => exact .nil
  | cons c text ih =>
    simp only [List.any_cons, Bool.or_eq_false_iff, decide_eq_false_iff_not] at h
    obtain ⟨⟨⟨hquote, hslash⟩, hend⟩, hrest⟩ := h
    exact .plain hquote hslash hend (ih (by simpa only [Bool.or_eq_false_iff] using hrest))

/-- The control characters, and the other characters that end a line. -/
def isControl (c : Char) : Bool :=
  c.toNat < 0x20 || (0x7F ≤ c.toNat && c.toNat ≤ 0x9F) || c = '\u2028' || c = '\u2029'

/-- The escape of a character by its number. -/
def escape (c : Char) : List Char :=
  let digit (n : Nat) : Char := Nat.digitChar (n % 16)
  ['\\', 'u', digit (c.toNat / 4096), digit (c.toNat / 256), digit (c.toNat / 16), digit c.toNat]

/-- **A text as it can be put between quotes:** with a backslash in front of each quote and backslash,
and with the numbers of control characters and of all characters that end a line. -/
def escaped (quote : Char) : List Char → List Char
  | [] => []
  | c :: rest =>
    if c = quote ∨ c = '\\' then '\\' :: c :: escaped quote rest
    else if isControl c then escape c ++ escaped quote rest
    else c :: escaped quote rest

/-- A digit in base 16 is read back as what it stands for. -/
lemma hexDigit?_digitChar (n : Nat) : hexDigit? (Nat.digitChar (n % 16)) = some (n % 16) := by
  have hall : ∀ k < 16, hexDigit? (Nat.digitChar k) = some k := by decide
  exact hall _ (Nat.mod_lt n (by decide))

/-- Control characters are among the first of the code points, so four digits are enough to escape
them. -/
lemma lt_of_isControl {c : Char} (h : isControl c = true) : c.toNat < 65536 := by
  simp only [isControl, Bool.or_eq_true, decide_eq_true_eq, Bool.and_eq_true] at h
  rcases h with ((h | h) | rfl) | rfl
  · omega
  · omega
  · decide
  · decide

/-- What is not a control character does not end a line. -/
lemma isLineEnd_of_not_isControl {c : Char} (h : isControl c = false) : isLineEnd c = false := by
  by_contra hend
  rw [Bool.not_eq_false] at hend
  simp only [isLineEnd, Bool.or_eq_true, decide_eq_true_eq] at hend
  rcases hend with ((rfl | rfl) | rfl) | rfl <;> exact absurd h (by decide)

/-- **An escaped text spells the text.**

**Proof sketch.** Induction on the text. A quote or a backslash is spelled by an escape that stands
for itself, a control character by four digits in base 16, and any other character by itself. -/
lemma spelled_escaped {quote : Char} (hquote : quote = '"' ∨ quote = '\'') (text : List Char) :
    Spelled quote (escaped quote text) (codePoints text) := by
  induction text with
  | nil => exact .nil
  | cons c text ih =>
    rw [escaped]
    split_ifs with hbare hcontrol
    · have hescape : simpleEscape? c = some c.toNat := by
        rcases hbare with rfl | rfl
        · rcases hquote with rfl | rfl <;> decide
        · decide
      have hend : isLineEnd c = false := by
        rcases hbare with rfl | rfl
        · rcases hquote with rfl | rfl <;> decide
        · decide
      exact .escape hend hescape ih
    · have hlt := lt_of_isControl hcontrol
      have hquad : hexQuad? (Nat.digitChar (c.toNat / 4096 % 16)) (Nat.digitChar (c.toNat / 256 % 16))
          (Nat.digitChar (c.toNat / 16 % 16)) (Nat.digitChar (c.toNat % 16)) = some c.toNat := by
        simp only [hexQuad?, hexPair?, hexDigit?_digitChar, bind, pure, Option.bind_some,
          Option.some.injEq]
        omega
      exact .quad hquad ih
    · obtain ⟨hne, hslash⟩ := not_or.mp hbare
      exact .plain hne hslash (isLineEnd_of_not_isControl (by simpa using hcontrol)) ih

/-! ## Numbers -/

namespace Numeral

/-- A natural number as a numeral. -/
def ofNat (n : Nat) : Numeral :=
  ⟨none, .decimal (Nat.toDigits 10 n) none none⟩

/-- The digits of a number in base 10 are digits to the reader. -/
lemma isDigit_of_mem_toDigits {c : Char} {n : Nat} (h : c ∈ Nat.toDigits 10 n) : isDigit c = true := by
  have hdigit := Nat.isDigit_of_mem_toDigits (by decide) (by decide) h
  simpa [isDigit, Char.isDigit, Char.le_def] using hdigit

/-- Digits stand for the number whose digits they are. -/
lemma foldDigits_toDigits (n : Nat) : foldDigits 10 0 (Nat.toDigits 10 n) = n := by
  have hdigit : ∀ k < 10, hexDigit? (Nat.digitChar k) = some k := by decide
  induction n using Nat.strongRecOn with
  | ind n ih =>
    rcases Nat.lt_or_ge n 10 with hlt | hle
    · rw [Nat.toDigits_of_lt_base hlt]
      simp [foldDigits, hdigit n hlt]
    · have hlast := hdigit (n % 10) (Nat.mod_lt n (by decide))
      rw [Nat.toDigits_of_base_le (by decide) hle, foldDigits, List.foldl_append]
      have hfirst := ih (n / 10) (Nat.div_lt_self (by omega) (by decide))
      rw [foldDigits] at hfirst
      rw [hfirst]
      simp only [List.foldl_cons, List.foldl_nil, hlast, Option.getD_some]
      omega

/-- A number is written without leading zeros.

**Proof sketch.** The digits of a positive number begin with those of its tenth part, and so with
none that is zero, by strong induction. -/
lemma exists_toDigits (n : Nat) :
    ∃ d digits, Nat.toDigits 10 n = d :: digits ∧ (d = '0' → digits = []) := by
  have hdigit : ∀ k < 10, Nat.digitChar k = '0' → k = 0 := by decide
  have hpos : 0 < n → ∃ d digits, Nat.toDigits 10 n = d :: digits ∧ d ≠ '0' := by
    induction n using Nat.strongRecOn with
    | ind n ih =>
      intro hn
      rcases Nat.lt_or_ge n 10 with hlt | hle
      · exact ⟨_, [], Nat.toDigits_of_lt_base hlt, fun hzero => hn.ne' (hdigit n hlt hzero)⟩
      · obtain ⟨d, digits, heq, hd⟩ := ih (n / 10) (Nat.div_lt_self hn (by decide)) (by omega)
        exact ⟨d, digits ++ [_], by rw [Nat.toDigits_of_base_le (by decide) hle, heq]; rfl, hd⟩
  rcases Nat.eq_zero_or_pos n with rfl | hn
  · exact ⟨'0', [], rfl, fun _ => rfl⟩
  · obtain ⟨d, digits, heq, hd⟩ := hpos hn
    exact ⟨d, digits, heq, fun hzero => absurd hzero hd⟩

/-- What none of the ten digits has does not hold of a digit. -/
lemma eq_false_of_isDigit {p : Char → Bool}
    (hall : ['0', '1', '2', '3', '4', '5', '6', '7', '8', '9'].any p = false) {c : Char}
    (h : isDigit c = true) : p c = false := by
  suffices hmem : c ∈ ['0', '1', '2', '3', '4', '5', '6', '7', '8', '9'] by
    simpa using List.any_eq_false.mp hall c hmem
  simp only [isDigit, Bool.and_eq_true, decide_eq_true_eq] at h
  have hlow : 48 ≤ c.toNat := h.1
  have hhigh : c.toNat ≤ 57 := h.2
  rw [← Char.ofNat_toNat c]
  interval_cases c.toNat <;> decide

/-- Nothing but a numeral begins with a digit. -/
lemma notMem_of_isDigit {c : Char} (h : isDigit c = true) :
    c ∉ ['\x7b', '\x7d', '[', ']', ':', ',', '"', '\'', '\\', '+', '-', 'I', 'N'] := by
  have hc : List.contains
      ['\x7b', '\x7d', '[', ']', ':', ',', '"', '\'', '\\', '+', '-', 'I', 'N'] c = false :=
    eq_false_of_isDigit (by decide) h
  rwa [List.contains_eq_mem, decide_eq_false_iff_not] at hc

variable {d c : Char} {digits : List Char}

/-- The digits before a point, or before whatever ends the number, are read in full. A leading zero
has to stand alone. -/
lemma readWhole_append (hdigits : ∀ c ∈ d :: digits, isDigit c = true) (hzero : d = '0' → digits = [])
    (hc : isDigit c = false) :
    readWhole (d :: (digits ++ c :: rest)) = (d :: digits, c :: rest) := by
  by_cases hd : d = '0'
  · rw [hd, hzero hd]
    rfl
  · rw [readWhole.eq_2 _ (by simpa using hd), ← List.cons_append,
      List.takeWhile_append_of_pos hdigits, List.dropWhile_append_of_pos hdigits]
    simp [hc]

/-- Digits without leading zeros are read up to what cannot go on with them.

**Proof sketch.** There is no sign. The digits are not those of a number in base 16, as what ends
them is no `x`; what ends them is no point and no mark of an exponent either. -/
lemma read?_append (hdigits : ∀ c ∈ d :: digits, isDigit c = true) (hzero : d = '0' → digits = [])
    (hc : isDigit c = false) (hend : c ∉ ['.', 'e', 'E', 'x', 'X']) :
    read? (d :: (digits ++ c :: rest)) =
      some (⟨none, .decimal (d :: digits) none none⟩, c :: rest) := by
  have hd := notMem_of_isDigit (hdigits d List.mem_cons_self)
  simp only [List.mem_cons, List.not_mem_nil, or_false, not_or] at hd hend
  obtain ⟨-, -, -, -, -, -, -, -, -, hplus, hminus, hI, hN⟩ := hd
  obtain ⟨hpoint, he, hE, hx, hX⟩ := hend
  have hdecimal : readDecimal? (d :: (digits ++ c :: rest)) =
      some (.decimal (d :: digits) none none, c :: rest) := by
    rw [readDecimal?, readWhole_append hdigits hzero hc]
    simp [hpoint, readExponent, he, hE]
  have hmagnitude : readMagnitude? (d :: (digits ++ c :: rest)) =
      some (.decimal (d :: digits) none none, c :: rest) := by
    by_cases hd : d = '0'
    · rw [← hdecimal, hd, hzero hd, List.nil_append, readMagnitude?, if_neg (by simp [hx, hX])]
    · rw [readMagnitude?.eq_4 _ (by simp [hd]) (by simp [hI]) (by simp [hN]), hdecimal]
  rw [read?, readSign.eq_3 _ (by simp [hplus]) (by simp [hminus])]
  simp only [hmagnitude, Option.map_some]

end Numeral

/-- **A natural number is read again** as far as its digits go. -/
lemma exists_readToken?_ofNat (n : Nat) {c : Char} (hc : Numeral.isDigit c = false)
    (hend : c ∉ ['.', 'e', 'E', 'x', 'X']) (rest : List Char) :
    ∃ d digits, Nat.toDigits 10 n = d :: digits ∧
      readToken? d (digits ++ c :: rest) = some (.numeral (.ofNat n), c :: rest) := by
  obtain ⟨d, digits, heq, hzero⟩ := Numeral.exists_toDigits n
  have hdigits : ∀ c ∈ d :: digits, Numeral.isDigit c = true := by
    intro c hc
    exact Numeral.isDigit_of_mem_toDigits (heq ▸ hc)
  have hword : isWordStart d = false :=
    Numeral.eq_false_of_isDigit (by decide +kernel) (hdigits d List.mem_cons_self)
  have hd := Numeral.notMem_of_isDigit (hdigits d List.mem_cons_self)
  simp only [List.mem_cons, List.not_mem_nil, or_false, not_or] at hd
  obtain ⟨h1, h2, h3, h4, h5, h6, h7, h8, hslash, -⟩ := hd
  refine ⟨d, digits, heq, ?_⟩
  rw [readToken?.eq_9 d _ h1 h2 h3 h4 h5 h6 h7 h8, if_neg (by simp [hword, hslash]),
    Numeral.read?_append hdigits hzero hc hend, ← heq]
  rfl

end Detab.Json5
