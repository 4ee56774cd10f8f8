import Detab.Expansion
import Mathlib.Data.List.Induction
import Mathlib.Tactic.Common

set_option relaxedAutoImplicit false
set_option autoImplicit false

/-!
# Copying between tabs is substitution byte by byte

`Expansion.expand` finds the positions of the tabs first and then copies what stands between them in
slices. The result is the one that `Expansion.substitute` describes byte by byte.

## Main definitions

* `Detab.Expansion.exchange` — a list in which one element is replaced with many.
* `Detab.Expansion.positionsFrom` — the positions of the tabs of a byte string whose first byte has
  a given position.
* `Detab.Expansion.Cursor.At` — **where the copying stands** behind some bytes.

## Main results

* `Detab.Expansion.tabPositions_eq` — the positions that are searched for from the end are the ones
  that a reading from the front meets.
* `Detab.Expansion.Cursor.At.foldl`, `Detab.Expansion.unpack_copied` — what the slices add up to, behind
  each tab and in the end.
* `Detab.Expansion.expand_eq_none_iff`, `Detab.Expansion.expand_eq_some` — when contents are left
  alone, and what they become otherwise.
* `Detab.Expansion.tab_notMem_substitute` — no tab is left.
-/

namespace Detab

/-- A slice of an array, in terms of its list of bytes. -/
lemma unpack_extract (contents : ByteArray) (i j : Nat) :
    unpack (contents.extract i j) = ((unpack contents).take j).drop i := by
  simp [unpack, List.drop_take]

namespace Expansion

/-! ## Exchanging elements -/

section Exchange

variable {α : Type} [DecidableEq α] {old new x : α} {w : Nat} {l l' : List α}

/-- **A list in which one element is replaced** with a number of others, wherever it stands. The
substitution is the one in which a tab is replaced with spaces. -/
def exchange (old new : α) (w : Nat) (l : List α) : List α :=
  l.flatMap fun x => if x = old then List.replicate w new else [x]

/-- An exchange acts on each part of a list by itself. -/
lemma exchange_append : exchange old new w (l ++ l') = exchange old new w l ++ exchange old new w l' :=
  List.flatMap_append

/-- What is exchanged becomes a run of the new element. -/
lemma exchange_cons_self :
    exchange old new w (old :: l) = List.replicate w new ++ exchange old new w l := by
  simp [exchange]

/-- What is not exchanged is kept. -/
lemma exchange_cons_of_ne (h : x ≠ old) : exchange old new w (x :: l) = x :: exchange old new w l := by
  simp [exchange, h]

/-- A list without the old element stays as it is. -/
lemma exchange_of_notMem (h : old ∉ l) : exchange old new w l = l := by
  induction l with
  | nil => rfl
  | cons x l ih =>
    obtain ⟨hx, hl⟩ := List.ne_and_not_mem_of_not_mem_cons h
    rw [exchange_cons_of_ne (Ne.symm hx), ih hl]

end Exchange

/-! ## Substitution -/

/-- The empty byte string is its own substitution. -/
@[simp]
lemma substitute_nil (width : Nat) : substitute width [] = [] := rfl

/-- A tab at the head becomes a run of spaces. -/
lemma substitute_cons_tab (width : Nat) (bytes : Bytes) :
    substitute width (tab :: bytes) = List.replicate width space ++ substitute width bytes :=
  exchange_cons_self

/-- Any other byte at the head is kept. -/
lemma substitute_cons_of_ne (width : Nat) {b : UInt8} (hb : b ≠ tab) (bytes : Bytes) :
    substitute width (b :: bytes) = b :: substitute width bytes :=
  exchange_cons_of_ne hb

/-- Substitution acts on each part of a byte string by itself, so it can be done line by line or
piece by piece. -/
lemma substitute_append (w : Nat) (a b : Bytes) :
    substitute w (a ++ b) = substitute w a ++ substitute w b :=
  exchange_append

/-- **No tab is left,** whatever the width. -/
lemma tab_notMem_substitute (width : Nat) (bytes : Bytes) : tab ∉ substitute width bytes := by
  intro h
  obtain ⟨b, -, hb⟩ := List.mem_flatMap.mp h
  unfold replacement at hb
  split at hb
  · exact absurd (List.eq_of_mem_replicate hb) (by decide)
  · rename_i hne
    exact hne (List.mem_singleton.mp hb).symm

/-- Without a tab nothing is replaced. -/
lemma substitute_of_notMem (width : Nat) {bytes : Bytes} (h : tab ∉ bytes) :
    substitute width bytes = bytes :=
  exchange_of_notMem h

/-! ## Positions -/

/-- The positions of the tabs of a byte string whose first byte has the position `i`. -/
def positionsFrom (i : Nat) : Bytes → List Nat
  | [] => []
  | b :: rest => if b = tab then i :: positionsFrom (i + 1) rest else positionsFrom (i + 1) rest

/-- The positions in two byte strings, one behind the other: those in the second one are moved by
the length of the first one. -/
lemma positionsFrom_append (i : Nat) (a b : Bytes) :
    positionsFrom i (a ++ b) = positionsFrom i a ++ positionsFrom (i + a.length) b := by
  induction a generalizing i with
  | nil => simp [positionsFrom]
  | cons c a ih =>
    have hlen : i + 1 + a.length = i + (a.length + 1) := by omega
    by_cases hc : c = tab <;> simp [positionsFrom, hc, ih, hlen]

/-- Without a tab there is no position. -/
lemma positionsFrom_eq_nil_iff (i : Nat) (bytes : Bytes) :
    positionsFrom i bytes = [] ↔ tab ∉ bytes := by
  induction bytes generalizing i with
  | nil => simp [positionsFrom]
  | cons b rest ih =>
    by_cases hb : b = tab
    · simp [positionsFrom, hb]
    · simp [positionsFrom, hb, ih, Ne.symm hb]

/-- The search from the end finds the positions of the bytes that it has passed. -/
lemma tabsBefore_eq (contents : ByteArray) (n : Nat) (h : n ≤ contents.size) (later : List Nat) :
    tabsBefore contents n h later = positionsFrom 0 ((unpack contents).take n) ++ later := by
  induction n generalizing later with
  | zero => simp [tabsBefore, positionsFrom]
  | succ n ih =>
    have hn : n < contents.size := h
    have hget : (unpack contents)[n]? = some contents[n] := List.getElem?_eq_getElem h
    have hmin : min n contents.size = n := Nat.min_eq_left (Nat.le_of_lt hn)
    rw [tabsBefore, ih, List.take_add_one, hget, positionsFrom_append]
    by_cases hb : contents[n] = tab <;> simp [positionsFrom, hb, hmin]

/-- **The positions of the tabs,** read from the front. -/
lemma tabPositions_eq (contents : ByteArray) :
    tabPositions contents = positionsFrom 0 (unpack contents) := by
  rw [tabPositions, tabsBefore_eq, ← length_unpack, List.take_length, List.append_nil]

/-! ## Copying -/

/-- **Where the copying stands behind the bytes `done`:** what is copied of them and what is not copied
yet add up to their expansion. -/
structure Cursor.At (cursor : Cursor) (width : Nat) (done : Bytes) : Prop where
  start_le : cursor.start ≤ done.length
  copied : unpack cursor.expanded ++ done.drop cursor.start = substitute width done

namespace Cursor.At

variable {contents : ByteArray} {width : Width} {w : Nat} {done left : Bytes} {cursor : Cursor}

/-- Nothing is copied yet. -/
lemma nil {buffer : ByteArray} (hempty : unpack buffer = []) : At ⟨0, buffer⟩ w [] :=
  ⟨Nat.le_refl _, by simp [hempty]⟩

/-- The slice up to the end of `done` adds what is not copied of it yet. -/
lemma unpack_slice (h : cursor.At w done) (hsplit : unpack contents = done ++ left) :
    unpack (cursor.expanded ++ contents.extract cursor.start done.length) = substitute w done := by
  have hslice : unpack (contents.extract cursor.start done.length) = done.drop cursor.start := by
    rw [unpack_extract, hsplit, List.take_left]
  rw [unpack_append, hslice, h.copied]

/-- **A tab is passed:** nothing up to it is uncopied then. -/
lemma passTab (h : cursor.At width.toNat done) (hsplit : unpack contents = done ++ tab :: left) :
    (cursor.passTab contents width done.length).At width.toNat (done ++ [tab]) := by
  refine ⟨by simp [Cursor.passTab], ?_⟩
  rw [Cursor.passTab, unpack_addRepeated, h.unpack_slice hsplit, substitute_append,
    substitute_cons_tab]
  simp

/-- Any other byte only makes the uncopied part longer. -/
lemma other (h : cursor.At w done) {b : UInt8} (hb : b ≠ tab) : cursor.At w (done ++ [b]) := by
  have hstart := h.start_le
  refine ⟨by simp only [List.length_append, List.length_singleton]; omega, ?_⟩
  rw [List.drop_append_of_le_length hstart, ← List.append_assoc, h.copied, substitute_append,
    substitute_cons_of_ne _ hb, substitute_nil]

/-- **Where the copying stands once the tabs of `done` are passed.**

**Proof sketch.** Induction on `done` from its end, as the cursor is carried from the front. -/
lemma foldl {buffer : ByteArray} (hempty : unpack buffer = [])
    (hsplit : unpack contents = done ++ left) :
    ((positionsFrom 0 done).foldl (Cursor.passTab contents width) ⟨0, buffer⟩).At
      width.toNat done := by
  induction done using List.reverseRecOn generalizing left with
  | nil => exact nil hempty
  | append_singleton done b ih =>
    have hsplit' : unpack contents = done ++ b :: left := by simp [hsplit]
    have hbefore := ih hsplit'
    by_cases hb : b = tab
    · subst hb
      simpa [positionsFrom_append, positionsFrom] using hbefore.passTab hsplit'
    · simpa [positionsFrom_append, positionsFrom, hb] using hbefore.other hb

/-- **Finishing** copies what is left, once no tab is. -/
lemma unpack_finish (h : cursor.At w (unpack contents)) :
    unpack (cursor.finish contents) = substitute w (unpack contents) := by
  rw [Cursor.finish, ← length_unpack, h.unpack_slice (List.append_nil _).symm]

end Cursor.At

/-- A buffer that was reserved is empty. -/
lemma unpack_of_reserve {canReserve : Nat → Bool} {length : Nat} {buffer : ByteArray}
    (h : reserve canReserve length = .ok buffer) : unpack buffer = [] := by
  unfold reserve at h
  split_ifs at h
  obtain rfl := Except.ok.inj h
  rfl

/-- **What is copied into an empty buffer** is the expansion of the contents. -/
lemma unpack_copied (contents : ByteArray) (width : Width) {buffer : ByteArray}
    (hempty : unpack buffer = []) :
    unpack (((tabPositions contents).foldl (Cursor.passTab contents width) ⟨0, buffer⟩).finish
      contents) = substitute width.toNat (unpack contents) := by
  rw [tabPositions_eq]
  exact (Cursor.At.foldl hempty (List.append_nil _).symm).unpack_finish

/-- Contents are left alone exactly when they hold no tab. -/
lemma expand_eq_none_iff (canReserve : Nat → Bool) (contents : ByteArray) (width : Width) :
    expand canReserve contents width = .ok none ↔ tab ∉ unpack contents := by
  rw [← positionsFrom_eq_nil_iff 0, ← tabPositions_eq, expand]
  split
  · simp [*]
  · rename_i hsome
    dsimp only
    refine iff_of_false ?_ hsome
    split
    · simp
    · split <;> simp

/-- **An expansion that is made is the substitution,** and there was a tab to replace. -/
lemma expand_eq_some {canReserve : Nat → Bool} {contents : ByteArray} {width : Width}
    {expanded : ByteArray} (h : expand canReserve contents width = .ok (some expanded)) :
    tab ∈ unpack contents ∧
      unpack expanded = substitute width.toNat (unpack contents) := by
  refine ⟨?_, ?_⟩
  · by_contra hnot
    rw [(expand_eq_none_iff canReserve contents width).mpr hnot] at h
    simp at h
  · rw [expand] at h
    split at h
    · simp at h
    · dsimp only at h
      split at h
      · simp at h
      · split at h
        · simp at h
        · rename_i hreserved
          obtain rfl := Option.some.inj (Except.ok.inj h)
          exact unpack_copied contents width (unpack_of_reserve hreserved)

end Expansion

end Detab
