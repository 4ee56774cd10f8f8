import Detab.Conversion
import Detab.Proofs.Expansion.Outcome
import Detab.Proofs.Text.Decoding
import Mathlib.Data.List.Forall2
import Mathlib.Data.List.Infix

set_option relaxedAutoImplicit false
set_option autoImplicit false

/-!
# Expansion line by line

Contents are expanded as a whole. They could as well be cut into pieces, anywhere, and be expanded
piece by piece: what can be expanded as a whole can be expanded in pieces, and the pieces of the
result are their expansions. Cut behind each newline, the contents are expanded line by line.

## Main definitions

* `Detab.Expansion.IsExpansion` — the result of an expansion, in which contents without tabs are
  left as they are.
* `Detab.Expansion.lines` — the lines of a byte string.
* `Detab.Expansion.terminator` — what a line ends with.
* `Detab.Expansion.SameLine` — what a line and its expansion have in common.

## Main results

* `Detab.Expansion.expand_eq_some_iff` — when an expansion is made.
* `Detab.Expansion.exists_of_expand_append` — **the expansion of two pieces in a row.**
* `Detab.Expansion.exists_texts_of_lines` — a newline ends each line but the last.
* `Detab.Expansion.lines_substitute` — the lines of an expansion are the expansions of the lines.
* `Detab.Expansion.lines_of_expand` — **an expansion is made piece by piece and line by line.**

## Design

A smaller length could be refused although a larger one is not, so the memory is assumed to have a
limit: what is refused stays refused when it grows.

The last line is what is behind the last newline. It has no terminator, and it can be empty. So there
is one line more than there are newlines, and no line is lost when the width is zero: of a last line
of tabs alone an empty last line is left. With this width a carriage return can also come to stand
right before the newline, when there were only tabs between them.
-/

namespace Detab.Expansion

variable {canReserve : Nat → Bool} {contents a b expanded : ByteArray} {width : Width}
  {bytes line front back : Bytes} {w : Nat}

/-! ## When an expansion is made -/

/-- A length for which a buffer can be had. -/
def Reservable (canReserve : Nat → Bool) (length : Nat) : Prop :=
  length ≤ maxCapacity ∧ canReserve length = true

/-- A buffer of some length can be had exactly when the length is within the capacity and the
machine grants it. -/
lemma exists_reserve_iff {length : Nat} :
    (∃ buffer, reserve canReserve length = .ok buffer) ↔ Reservable canReserve length := by
  constructor
  · rintro ⟨buffer, h⟩
    unfold reserve at h
    split_ifs at h with hlarge hreserve
    exact ⟨Nat.not_lt.mp hlarge, hreserve⟩
  · rintro ⟨hsmall, hreserve⟩
    exact ⟨_, (if_neg (Nat.not_lt.mpr hsmall)).trans (if_pos hreserve)⟩

/-- **An expansion is made** when there is a tab and a buffer can be had for it.

**Proof sketch.** From the left the two tests of the expansion have been passed. From the right a
length that can be reserved is below `2 ^ 63`, so it has been computed exactly. -/
lemma expand_eq_some_iff : expand canReserve contents width = .ok (some expanded) ↔
    tab ∈ unpack contents ∧
      Reservable canReserve (expandedLength width.toNat (unpack contents)) ∧
      unpack expanded = substitute width.toNat (unpack contents) := by
  constructor
  · intro h
    obtain ⟨htab, hexpanded⟩ := expand_eq_some h
    refine ⟨htab, ?_, hexpanded⟩
    rw [expand_eq_of_mem htab, length?_eq] at h
    split_ifs at h
    dsimp only at h
    split at h
    · simp at h
    · rename_i buffer hreserve
      exact exists_reserve_iff.mp ⟨buffer, hreserve⟩
  · rintro ⟨htab, hreservable, hexpanded⟩
    have hmax : maxCapacity = 2 ^ 63 - 1 := rfl
    obtain ⟨buffer, hreserve⟩ := exists_reserve_iff.mpr hreservable
    have hsmall : ¬ 2 ^ 64 ≤ expandedLength width.toNat (unpack contents) := by
      have hle := hreservable.1
      omega
    rw [expand_eq_of_mem htab, length?_eq, if_neg hsmall]
    dsimp only
    rw [hreserve, ← hexpanded, pack_unpack]

/-- **The result of an expansion,** in which contents without tabs are left as they are. -/
def IsExpansion (canReserve : Nat → Bool) (width : Width) (contents : ByteArray) (result : Bytes) :
    Prop :=
  ∃ r, expand canReserve contents width = .ok r ∧ unpack (r.getD contents) = result

/-- The result is the substitution, and it is had if a buffer can be. -/
lemma isExpansion_iff {result : Bytes} : IsExpansion canReserve width contents result ↔
    (tab ∈ unpack contents →
      Reservable canReserve (expandedLength width.toNat (unpack contents))) ∧
      result = substitute width.toNat (unpack contents) := by
  constructor
  · rintro ⟨_ | expanded, hexpand, rfl⟩
    · have htab := (expand_eq_none_iff _ _ _).mp hexpand
      exact ⟨fun h => absurd h htab, (substitute_of_notMem _ htab).symm⟩
    · obtain ⟨-, hreservable, hexpanded⟩ := expand_eq_some_iff.mp hexpand
      exact ⟨fun _ => hreservable, hexpanded⟩
  · rintro ⟨hreservable, rfl⟩
    by_cases htab : tab ∈ unpack contents
    · refine ⟨some (pack (substitute width.toNat (unpack contents))), ?_, rfl⟩
      exact expand_eq_some_iff.mpr ⟨htab, hreservable htab, rfl⟩
    · exact ⟨none, (expand_eq_none_iff _ _ _).mpr htab, (substitute_of_notMem _ htab).symm⟩

/-! ## Pieces -/

/-- The expansion of two parts is as long as the expansions of both together. -/
lemma expandedLength_append (w : Nat) (a b : Bytes) :
    expandedLength w (a ++ b) = expandedLength w a + expandedLength w b := by
  rw [← length_substitute, substitute_append, List.length_append, length_substitute,
    length_substitute]

section Monotone

variable (hmono : ∀ m n, m ≤ n → canReserve n = true → canReserve m = true)
include hmono

/-- A machine that grants a length also grants less, and so does the capacity. -/
lemma Reservable.of_le {m n : Nat} (h : Reservable canReserve n) (hle : m ≤ n) :
    Reservable canReserve m :=
  ⟨hle.trans h.1, hmono m n hle h.2⟩

/-- A piece is expanded when the whole is. -/
lemma IsExpansion.of_infix {piece : ByteArray} {result : Bytes}
    (h : IsExpansion canReserve width contents result)
    (hpiece : unpack contents = front ++ unpack piece ++ back) :
    IsExpansion canReserve width piece (substitute width.toNat (unpack piece)) := by
  refine isExpansion_iff.mpr ⟨fun htab => ?_, rfl⟩
  have hreservable := (isExpansion_iff.mp h).1
  rw [hpiece, expandedLength_append, expandedLength_append] at hreservable
  refine (hreservable ?_).of_le hmono (by omega)
  exact List.mem_append_left _ (List.mem_append_right _ htab)

/-- **The expansion of two pieces in a row** is the expansion of the one and of the other.

**Proof sketch.** Each piece is a part of the whole, so its expansion can be had too. Substitution
acts on the pieces, and there is a tab in the whole exactly when there is one in a piece. -/
lemma exists_of_expand_append {r : Option ByteArray}
    (h : expand canReserve (a ++ b) width = .ok r) :
    ∃ ra rb, expand canReserve a width = .ok ra ∧ expand canReserve b width = .ok rb ∧
      (r = none ↔ ra = none ∧ rb = none) ∧
      unpack (r.getD (a ++ b)) = unpack (ra.getD a) ++ unpack (rb.getD b) := by
  have hwhole : IsExpansion canReserve width (a ++ b) (unpack (r.getD (a ++ b))) := ⟨r, h, rfl⟩
  have hfront : unpack (a ++ b) = [] ++ unpack a ++ unpack b := unpack_append a b
  have hback : unpack (a ++ b) = unpack a ++ unpack b ++ [] := by simp
  obtain ⟨ra, hra, hresulta⟩ := hwhole.of_infix hmono hfront
  obtain ⟨rb, hrb, hresultb⟩ := hwhole.of_infix hmono hback
  have hnone {contents : ByteArray} {r : Option ByteArray}
      (h : expand canReserve contents width = .ok r) : r = none ↔ tab ∉ unpack contents := by
    rw [← expand_eq_none_iff canReserve contents width, h, Except.ok.injEq]
  refine ⟨ra, rb, hra, hrb, ?_, ?_⟩
  · rw [hnone h, hnone hra, hnone hrb, unpack_append, List.mem_append, not_or]
  · rw [hresulta, hresultb, (isExpansion_iff.mp hwhole).2, unpack_append, substitute_append]

end Monotone

/-! ## Lines -/

/-- The line feed. -/
def newline : UInt8 := 0x0A

/-- The carriage return. -/
def carriageReturn : UInt8 := 0x0D

/-- **The lines of a byte string:** it is cut behind each newline. -/
def lines : Bytes → List Bytes
  | [] => [[]]
  | b :: rest =>
    if b = newline then [b] :: lines rest else (lines rest).modifyHead (b :: ·)

/-- There is at least one line, if only an empty one: what stands behind the last newline counts as
a line. -/
lemma lines_ne_nil (bytes : Bytes) : lines bytes ≠ [] := by
  induction bytes with
  | nil => simp [lines]
  | cons b rest ih =>
    rw [lines]
    split
    · simp
    · simpa [List.modifyHead_eq_nil_iff] using ih

/-- Nothing is lost in cutting. -/
lemma flatten_lines (bytes : Bytes) : (lines bytes).flatten = bytes := by
  induction bytes with
  | nil => rfl
  | cons b rest ih =>
    rw [lines]
    split
    · rw [List.flatten_cons, ih]
      rfl
    · obtain ⟨line, later, hlines⟩ := List.exists_cons_of_ne_nil (lines_ne_nil rest)
      rw [hlines, List.flatten_cons] at ih
      rw [hlines, List.modifyHead_cons, List.flatten_cons, List.cons_append, ih]

/-- A newline ends each line but the last, and there is no other one. -/
lemma exists_texts_of_lines (bytes : Bytes) : ∃ (texts : List Bytes) (last : Bytes),
    lines bytes = texts.map (· ++ [newline]) ++ [last] ∧ (∀ text ∈ texts, newline ∉ text) ∧
      newline ∉ last := by
  induction bytes with
  | nil => exact ⟨[], [], rfl, by simp, by simp⟩
  | cons b rest ih =>
    obtain ⟨texts, last, hlines, htexts, hlast⟩ := ih
    by_cases hb : b = newline
    · refine ⟨[] :: texts, last, ?_, ?_, hlast⟩
      · rw [lines, if_pos hb, hlines, hb]
        rfl
      · simpa using htexts
    · rw [lines, if_neg hb, hlines]
      cases texts with
      | nil => exact ⟨[], b :: last, rfl, by simp, by simp [Ne.symm hb, hlast]⟩
      | cons text texts =>
        refine ⟨(b :: text) :: texts, last, rfl, ?_, hlast⟩
        simpa [Ne.symm hb] using htexts

/-- What has no newline belongs to the first line of what is behind it. -/
lemma lines_append (h : newline ∉ front) (back : Bytes) :
    lines (front ++ back) = (lines back).modifyHead (front ++ ·) := by
  induction front with
  | nil =>
    obtain ⟨line, later, hlines⟩ := List.exists_cons_of_ne_nil (lines_ne_nil back)
    rw [List.nil_append, hlines]
    rfl
  | cons b front ih =>
    obtain ⟨hb, hfront⟩ := List.ne_and_not_mem_of_not_mem_cons h
    rw [List.cons_append, lines, if_neg (Ne.symm hb), ih hfront, List.modifyHead_modifyHead]
    rfl

/-- What replaces a byte holds no newline, unless the byte is one. -/
lemma newline_notMem_replacement {b : UInt8} (hb : b ≠ newline) : newline ∉ replacement w b := by
  unfold replacement
  split
  · exact fun h => absurd (List.eq_of_mem_replicate h) (by decide)
  · exact fun h => hb (List.mem_singleton.mp h).symm

/-- **The lines of an expansion are the expansions of the lines.**

**Proof sketch.** Induction on the bytes. A newline ends a line and is kept; any other byte is
replaced by bytes of the same line. -/
lemma lines_substitute (w : Nat) (bytes : Bytes) :
    lines (substitute w bytes) = (lines bytes).map (substitute w) := by
  induction bytes with
  | nil => rfl
  | cons b rest ih =>
    have hcons : substitute w (b :: rest) = replacement w b ++ substitute w rest :=
      List.flatMap_cons
    rw [hcons, lines]
    by_cases hb : b = newline
    · subst hb
      have hsingle : replacement w newline = [newline] := rfl
      rw [if_pos rfl, hsingle, List.singleton_append, lines, if_pos rfl, ih]
      rfl
    · rw [if_neg hb, lines_append (newline_notMem_replacement hb), ih]
      obtain ⟨line, later, hlines⟩ := List.exists_cons_of_ne_nil (lines_ne_nil rest)
      rw [hlines]
      rfl

/-- What a line ends with; the last line has no terminator. -/
def terminator (line : Bytes) : Bytes :=
  if [carriageReturn, newline] <:+ line then [carriageReturn, newline]
  else if [newline] <:+ line then [newline]
  else []

/-- The terminator of a line is the end of it. -/
lemma terminator_suffix (line : Bytes) : terminator line <:+ line := by
  unfold terminator
  split_ifs with hboth hnewline
  · exact hboth
  · exact hnewline
  · exact List.nil_suffix

/-- No terminator holds a tab, so substitution leaves terminators alone. -/
lemma tab_notMem_terminator (line : Bytes) : tab ∉ terminator line := by
  unfold terminator
  split_ifs <;> decide

/-- With a width above zero the end of an expansion is the same, as far as it has no tab and no space.

**Proof sketch.** Induction on the end, from its last byte. It is the last byte on both sides, or
there is a tab on the one side and a space on the other. -/
lemma suffix_substitute_iff (hw : 0 < w) {tail : Bytes} (htab : tab ∉ tail) (hspace : space ∉ tail) :
    tail <:+ substitute w bytes ↔ tail <:+ bytes := by
  induction tail using List.reverseRecOn generalizing bytes with
  | nil => simp
  | append_singleton tail x ih =>
    rw [List.mem_append, List.mem_singleton, not_or] at htab hspace
    rcases List.eq_nil_or_concat' bytes with rfl | ⟨front, b, rfl⟩
    · rfl
    have hlast : substitute w [b] = replacement w b := List.flatMap_singleton _ _
    rw [substitute_append, hlast, Utf8.concat_suffix_concat_iff]
    by_cases hb : b = tab
    · obtain ⟨n, rfl⟩ := Nat.exists_eq_add_one.mpr hw
      have hspaces : replacement (n + 1) b = List.replicate n space ++ [space] := by
        rw [replacement, if_pos hb, List.replicate_succ']
      rw [hspaces, ← List.append_assoc, Utf8.concat_suffix_concat_iff, hb]
      exact iff_of_false (fun h => hspace.2 h.1.symm) fun h => htab.2 h.1.symm
    · rw [replacement, if_neg hb, Utf8.concat_suffix_concat_iff, ih htab.1 hspace.1]

/-- With a width above zero the terminator is not made longer either. -/
lemma terminator_substitute (hw : 0 < w) (line : Bytes) :
    terminator (substitute w line) = terminator line := by
  have hboth : [carriageReturn, newline] <:+ substitute w line ↔ [carriageReturn, newline] <:+ line :=
    suffix_substitute_iff hw (by decide) (by decide)
  have hnewline : [newline] <:+ substitute w line ↔ [newline] <:+ line :=
    suffix_substitute_iff hw (by decide) (by decide)
  simp only [terminator, hboth, hnewline]

/-- **What a line and its expansion of width `w` have in common:** the terminator, or that there is
none, and everything when there is no tab. -/
structure SameLine (w : Nat) (line result : Bytes) : Prop where
  terminated : terminator line <:+ result
  sameTerminator : 0 < w → terminator result = terminator line
  ended : newline ∈ result ↔ newline ∈ line
  untouched : tab ∉ line → result = line

/-- A line and its substitution have the same terminator, and are the same when there is no tab. -/
lemma sameLine_substitute (w : Nat) (line : Bytes) : SameLine w line (substitute w line) where
  terminated := by
    obtain ⟨text, hline⟩ := terminator_suffix line
    have hkept := substitute_of_notMem w (tab_notMem_terminator line)
    rw [← hline, substitute_append, hline, hkept]
    exact List.suffix_append _ _
  sameTerminator := fun hw => terminator_substitute hw line
  ended := by
    constructor
    · intro h
      obtain ⟨b, hb, hmem⟩ := List.mem_flatMap.mp h
      by_contra hnot
      exact newline_notMem_replacement (fun heq => hnot (heq ▸ hb)) hmem
    · intro h
      exact List.mem_flatMap.mpr ⟨newline, h, List.mem_singleton.mpr rfl⟩
  untouched := substitute_of_notMem w

/-- **An expansion is made piece by piece and line by line.** Let the memory have a limit.

* When contents in two pieces are expanded, each piece can be expanded by itself, the results in a row
  are the result, and contents are left alone when both pieces are.
* When contents are expanded, they are cut into lines behind each newline, and nothing is lost in
  cutting. Each line can be expanded by itself, its expansion is the line with spaces for each tab, and
  the expansions in a row are the result. They are its lines, so there are as many as before. Each line
  keeps its terminator, and the last one stays without one. With a width above zero no line has another
  terminator than before. A line without tabs stays as it is.

**Proof sketch.** Substitution acts on each piece and on each line by itself, and a part of what can
be reserved can be reserved. Newlines are neither made nor removed by it, because what replaces a
byte other than a newline holds none; so lines go to lines. -/
theorem lines_of_expand (canReserve : Nat → Bool) (width : Width)
    (hmono : ∀ m n, m ≤ n → canReserve n = true → canReserve m = true) :
    (∀ a b r, expand canReserve (a ++ b) width = .ok r →
      ∃ ra rb, expand canReserve a width = .ok ra ∧ expand canReserve b width = .ok rb ∧
        (r = none ↔ ra = none ∧ rb = none) ∧
        unpack (r.getD (a ++ b)) = unpack (ra.getD a) ++ unpack (rb.getD b)) ∧
    ∀ contents r, expand canReserve contents width = .ok r →
      (∃ (texts : List Bytes) (last : Bytes),
        lines (unpack contents) = texts.map (· ++ [newline]) ++ [last] ∧
        (∀ text ∈ texts, newline ∉ text) ∧ newline ∉ last) ∧
      (lines (unpack contents)).flatten = unpack contents ∧
      ∃ results, lines (unpack (r.getD contents)) = results ∧
        unpack (r.getD contents) = results.flatten ∧
        List.Forall₂ (fun line result => IsExpansion canReserve width (pack line) result ∧
          result = substitute width.toNat line ∧ SameLine width.toNat line result)
          (lines (unpack contents)) results := by
  refine ⟨fun a b r => exists_of_expand_append hmono, fun contents r hexpand => ?_⟩
  have hwhole : IsExpansion canReserve width contents (unpack (r.getD contents)) :=
    ⟨r, hexpand, rfl⟩
  refine ⟨exists_texts_of_lines _, flatten_lines _, _, rfl, (flatten_lines _).symm, ?_⟩
  rw [(isExpansion_iff.mp hwhole).2, lines_substitute, List.forall₂_map_right_iff,
    List.forall₂_same]
  intro line hline
  obtain ⟨before, after, hlines⟩ := List.append_of_mem hline
  have hpiece : unpack contents = before.flatten ++ unpack (pack line) ++ after.flatten := by
    rw [← flatten_lines (unpack contents), hlines, List.flatten_append, List.flatten_cons,
      unpack_pack, List.append_assoc]
  exact ⟨hwhole.of_infix hmono hpiece, rfl, sameLine_substitute _ line⟩

/-- Three lines, of which the second has no tab and the third no terminator. -/
theorem lines_of_expand_three :
    (∀ m n, m ≤ n → Platform.standard.canReserve n = true → Platform.standard.canReserve m = true) ∧
      expand Platform.standard.canReserve (pack (utf8 "\tx\r\ny\r\n\tz")) 3 =
        .ok (some (pack (utf8 "   x\r\ny\r\n   z"))) ∧
      List.Forall₂ (fun line result => IsExpansion Platform.standard.canReserve 3 (pack line) result ∧
        result = substitute 3 line ∧ SameLine 3 line result)
        (lines (utf8 "\tx\r\ny\r\n\tz")) (lines (utf8 "   x\r\ny\r\n   z")) := by
  have hmono : ∀ m n, m ≤ n → Platform.standard.canReserve n = true →
      Platform.standard.canReserve m = true := by
    intro m n hle hn
    exact decide_eq_true (lt_of_le_of_lt hle (of_decide_eq_true hn))
  have hexpand : expand Platform.standard.canReserve (pack (utf8 "\tx\r\ny\r\n\tz")) 3 =
      .ok (some (pack (utf8 "   x\r\ny\r\n   z"))) := by
    refine expand_eq_some_iff.mpr ⟨by decide, ⟨by decide, by decide⟩, by decide⟩
  obtain ⟨-, -, _, rfl, -, hlines⟩ :=
    (lines_of_expand Platform.standard.canReserve 3 hmono).2 _ _ hexpand
  exact ⟨hmono, hexpand, hlines⟩

end Detab.Expansion
