import Detab.Proofs.Json5.Lexemes

set_option relaxedAutoImplicit false
set_option autoImplicit false

/-!
# What stands between tokens

Blanks and comments separate tokens and mean nothing. This file shows that a text is cut into the
same tokens when a blank or a comment is put between two of them.

## Main definitions

* `Detab.Json5.piece?` — the token, blank or comment at the head of a text.
* `Detab.Json5.Gap` — the blanks and comments.
* `Detab.Json5.Between` — a place in a text that lies between tokens.

## Main results

* `Detab.Json5.scan_cons` — a text is cut into tokens piece by piece.
* `Detab.Json5.scan_insert` — **a gap between tokens changes no token.**
* `Detab.Json5.scan_insert_last` — a comment at the very end changes none either.
-/

namespace Detab.Json5

variable {text rest before after gap : List Char} {token : Token}

/-! ## Pieces -/

/-- The token, blank or comment at the head of a text that begins with `c`, and what comes after it.
A blank and a comment give no token. -/
def piece? (c : Char) (rest : List Char) : Option (List Token × List Char) :=
  if isBlank c then some ([], rest)
  else
    match c, rest with
    | '/', '/' :: rest => some ([], afterLine rest)
    | '/', '*' :: rest => (afterBlock? rest).map fun rest => ([], rest)
    | c, rest => (readToken? c rest).map fun (token, rest) => ([token], rest)

/-- A blank gives no token, and what comes after it is next. -/
lemma piece?_blank {c : Char} (h : isBlank c = true) (rest : List Char) :
    piece? c rest = some ([], rest) := by
  unfold piece?
  exact if_pos h

/-- Two slashes open a comment that ends with its line. -/
lemma piece?_line (rest : List Char) : piece? '/' ('/' :: rest) = some ([], afterLine rest) := by
  unfold piece?
  exact if_neg (by decide)

/-- A slash and a star open a comment that has to be closed. -/
lemma piece?_block (rest : List Char) :
    piece? '/' ('*' :: rest) = (afterBlock? rest).map fun rest => ([], rest) := by
  unfold piece?
  exact if_neg (by decide)

/-- What begins a token gives this token. -/
lemma piece?_token {c : Char} (h : readToken? c text = some (token, rest)) :
    piece? c text = some ([token], rest) := by
  have hbreak : isBreak c = false := by
    by_contra hbreak
    simp [readToken?_of_isBreak (by simpa using hbreak)] at h
  simp only [isBreak, Bool.or_eq_false_iff, decide_eq_false_iff_not] at hbreak
  unfold piece?
  rw [if_neg (by simp [hbreak.1])]
  split
  · exact absurd rfl hbreak.2
  · exact absurd rfl hbreak.2
  · rw [h, Option.map_some]

/-- A comment up to the end of its line leaves no more than there was. -/
lemma length_afterLine_le (text : List Char) : (afterLine text).length ≤ text.length := by
  fun_induction afterLine text with
  | case1 => exact le_rfl
  | case2 c rest hend => exact le_rfl
  | case3 c rest hend ih => exact ih.trans (Nat.le_succ _)

/-- A comment that is closed leaves no more than there was. -/
lemma length_afterBlock?_le (h : afterBlock? text = some rest) : rest.length ≤ text.length := by
  fun_induction afterBlock? text with
  | case1 tail =>
    obtain rfl := Option.some.inj h
    exact (Nat.le_succ _).trans (Nat.le_succ _)
  | case2 c tail hclose ih => exact (ih h).trans (Nat.le_succ _)
  | case3 => simp at h

/-- A piece takes at least its first character. -/
lemma length_piece?_le {c : Char} {tokens : List Token} (h : piece? c text = some (tokens, rest)) :
    rest.length ≤ text.length := by
  unfold piece? at h
  split at h
  · obtain ⟨-, rfl⟩ := Prod.mk.inj (Option.some.inj h)
    exact le_rfl
  · split at h
    · obtain ⟨-, rfl⟩ := Prod.mk.inj (Option.some.inj h)
      exact (length_afterLine_le _).trans (Nat.le_succ _)
    · obtain ⟨rest', hrest, hsame⟩ := Option.map_eq_some_iff.mp h
      obtain ⟨-, rfl⟩ := Prod.mk.inj hsame
      exact (length_afterBlock?_le hrest).trans (Nat.le_succ _)
    · obtain ⟨⟨token, rest'⟩, hread, hsame⟩ := Option.map_eq_some_iff.mp h
      obtain ⟨-, rfl⟩ := Prod.mk.inj hsame
      obtain ⟨used, rfl, -⟩ := ends_readToken? hread
      simp

/-! ## Fuel -/

/-- Nothing is left to be scanned. -/
lemma scanFrom_nil (fuel : Nat) : scanFrom fuel [] = some [] := by
  cases fuel <;> rfl

/-- One round: what is at the head, and then what comes after it with less fuel. -/
lemma scanFrom_succ (fuel : Nat) (c : Char) (rest : List Char) :
    scanFrom (fuel + 1) (c :: rest) =
      (piece? c rest).bind fun (tokens, rest) => (scanFrom fuel rest).map (tokens ++ ·) := by
  conv_lhs => unfold scanFrom
  unfold piece?
  split
  · simp
  · split
    · simp
    · split <;> simp [*]
    · split <;> simp [*]

/-- What is left over of the fuel does not matter.

**Proof sketch.** Induction on the fuel. Each round takes at least one character off the text, and
one unit off the fuel. -/
lemma scanFrom_congr {fuel fuel' : Nat} (h : text.length ≤ fuel) (h' : text.length ≤ fuel') :
    scanFrom fuel text = scanFrom fuel' text := by
  induction fuel generalizing fuel' text with
  | zero =>
    obtain rfl := List.length_eq_zero_iff.mp (Nat.le_zero.mp h)
    rw [scanFrom_nil, scanFrom_nil]
  | succ fuel ih =>
    cases text with
    | nil => rw [scanFrom_nil, scanFrom_nil]
    | cons c rest =>
      obtain ⟨fuel', rfl⟩ : ∃ k, fuel' = k + 1 := Nat.exists_eq_succ_of_ne_zero (by
        rintro rfl
        simp at h')
      rw [scanFrom_succ, scanFrom_succ]
      cases hpiece : piece? c rest with
      | none => rfl
      | some piece =>
        have hlength := length_piece?_le hpiece
        simp only [Option.bind_some]
        rw [ih (hlength.trans (by simpa using h)) (hlength.trans (by simpa using h'))]

/-- **A text is cut into tokens piece by piece.** -/
lemma scan_cons (c : Char) (rest : List Char) :
    scan (c :: rest) = (piece? c rest).bind fun (tokens, rest) => (scan rest).map (tokens ++ ·) := by
  rw [scan, List.length_cons, scanFrom_succ]
  cases hpiece : piece? c rest with
  | none => rfl
  | some piece =>
    simp only [Option.bind_some, scan]
    rw [scanFrom_congr (length_piece?_le hpiece) le_rfl]

/-- **A token at the head of a text is scanned first,** and then what comes after it; the fuel is
hidden here. -/
lemma scan_token {c : Char} (h : readToken? c text = some (token, rest)) :
    scan (c :: text) = (scan rest).map (token :: ·) := by
  rw [scan_cons, piece?_token h]
  rfl

/-! ## Gaps -/

/-- **What may stand between tokens:** a blank, a comment up to the end of its line, or a comment that
is closed. -/
inductive Gap : List Char → Prop
  | blank {c : Char} : isBlank c = true → Gap [c]
  | line {body : List Char} {c : Char} :
      (∀ c ∈ body, isLineEnd c = false) → isLineEnd c = true → Gap ('/' :: '/' :: (body ++ [c]))
  | block {body : List Char} :
      ¬ ['*', '/'] <:+: body ++ ['*'] → Gap ('/' :: '*' :: (body ++ ['*', '/']))

/-- A comment ends at the first character that ends a line. -/
lemma afterLine_append {body : List Char} (hbody : ∀ c ∈ body, isLineEnd c = false)
    (hrest : ∀ c ∈ rest.head?, isLineEnd c = true) : afterLine (body ++ rest) = rest := by
  induction body with
  | nil =>
    cases rest with
    | nil => rfl
    | cons c rest => simp [afterLine, hrest c rfl]
  | cons c body ih =>
    rw [List.cons_append, afterLine, if_neg (by simp [hbody c (by simp)])]
    exact ih fun c hc => hbody c (by simp [hc])

/-- A comment ends at the first star that a slash follows.

**Proof sketch.** Induction on the body. The comment would end earlier only if a star and a slash
followed one another in it. -/
lemma afterBlock?_append {body : List Char} (hbody : ¬ ['*', '/'] <:+: body ++ ['*']) :
    afterBlock? (body ++ '*' :: '/' :: rest) = some rest := by
  induction body with
  | nil => rfl
  | cons c body ih =>
    rw [List.cons_append] at hbody ⊢
    rw [afterBlock?.eq_2]
    · exact ih fun hmiddle => hbody (hmiddle.trans (List.suffix_cons c _).isInfix)
    · rintro tail rfl htail
      refine hbody (List.IsPrefix.isInfix ?_)
      cases body with
      | nil => simp at htail
      | cons d body =>
        obtain rfl := (List.cons.inj htail).1
        exact ⟨body ++ ['*'], rfl⟩

/-- A gap gives no token.

**Proof sketch.** By the kinds of gaps. A comment that ends with its line leaves the end of the
line, which is a blank. -/
lemma scan_gap (h : Gap gap) (rest : List Char) : scan (gap ++ rest) = scan rest := by
  cases h with
  | blank hc =>
    rw [List.singleton_append, scan_cons, piece?_blank hc]
    simp
  | @line body c hbody hc =>
    have hend : afterLine (body ++ c :: rest) = c :: rest := afterLine_append hbody (by simpa using hc)
    have hblank : isBlank c = true := by simp [isBlank, hc]
    have hlist : '/' :: '/' :: (body ++ [c]) ++ rest = '/' :: '/' :: (body ++ c :: rest) := by simp
    rw [hlist, scan_cons, piece?_line, hend]
    simp only [Option.bind_some, List.nil_append, Option.map_id']
    rw [scan_cons, piece?_blank hblank]
    simp
  | @block body hbody =>
    have hlist : '/' :: '*' :: (body ++ ['*', '/']) ++ rest =
        '/' :: '*' :: (body ++ '*' :: '/' :: rest) := by simp
    rw [hlist, scan_cons, piece?_block, afterBlock?_append hbody]
    simp

/-- What stands between tokens is not empty, and begins with a break. -/
lemma Gap.exists_cons (h : Gap gap) : ∃ c tail, gap = c :: tail ∧ isBreak c = true := by
  cases h with
  | @blank c hc => exact ⟨c, [], rfl, by simp [isBreak, hc]⟩
  | line => exact ⟨_, _, rfl, by decide⟩
  | block => exact ⟨_, _, rfl, by decide⟩

/-! ## Between tokens -/

/-- **A place in a text that lies between tokens:** what comes before it is cut into whole gaps and
tokens. -/
inductive Between : List Char → List Char → Prop
  | start {after : List Char} : Between [] after
  | gap {gap before after : List Char} : Gap gap → Between before after → Between (gap ++ before) after
  | token {c : Char} {lexeme before after : List Char} {token : Token} :
      readToken? c (lexeme ++ (before ++ after)) = some (token, before ++ after) →
        Between before after → Between (c :: (lexeme ++ before)) after

/-- What comes behind a place between tokens may be replaced by a text with the same tokens that
begins with a break. -/
lemma Between.scan_eq {after' : List Char} (h : Between before after)
    (hbreak : ∃ c tail, after' = c :: tail ∧ isBreak c = true) (hsame : scan after' = scan after) :
    scan (before ++ after') = scan (before ++ after) := by
  induction h with
  | start => exact hsame
  | gap hgap _ ih => rw [List.append_assoc, List.append_assoc, scan_gap hgap, scan_gap hgap, ih hsame]
  | @token c lexeme before after token htoken _ ih =>
    obtain ⟨d, tail, rfl, hd⟩ := hbreak
    obtain ⟨used, heq, hused⟩ := ends_readToken? htoken
    obtain rfl := List.append_cancel_right heq
    have hparted : Parted (before ++ after) (before ++ d :: tail) := Parted.append before (.here hd)
    rw [List.cons_append, List.append_assoc, scan_token (hused _ hparted), ih hsame, List.cons_append,
      List.append_assoc, scan_token htoken]

/-- **A gap between tokens changes no token.** -/
lemma scan_insert (h : Between before after) (hgap : Gap gap) :
    scan (before ++ (gap ++ after)) = scan (before ++ after) := by
  obtain ⟨c, tail, rfl, hc⟩ := hgap.exists_cons
  exact h.scan_eq ⟨c, tail ++ after, rfl, hc⟩ (scan_gap hgap after)

/-- A comment at the very end, which no line end has to follow, changes none either. -/
lemma scan_insert_last {body : List Char} (h : Between before [])
    (hbody : ∀ c ∈ body, isLineEnd c = false) :
    scan (before ++ '/' :: '/' :: body) = scan before := by
  have hend : afterLine (body ++ []) = [] := afterLine_append hbody (by simp)
  rw [List.append_nil] at hend
  have hscan : scan ('/' :: '/' :: body) = scan [] := by
    rw [scan_cons, piece?_line, hend]
    rfl
  simpa using h.scan_eq ⟨'/', '/' :: body, rfl, by decide⟩ hscan

end Detab.Json5
