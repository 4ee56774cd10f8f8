import Detab.Json5.Value
import Mathlib.Tactic.Common

set_option relaxedAutoImplicit false
set_option autoImplicit false

/-!
# Which tokens spell a value

Values are read by three functions that call each other, with fuel. This file gives the grammar that
they follow, without fuel, and from it what an object looks like.

## Main definitions

* `Detab.Json5.Spells` — the grammar of values, on tokens.
* `Detab.Json5.Member`, `Detab.Json5.document` — an object as it is written.

## Main results

* `Detab.Json5.sound`, `Detab.Json5.Spells.readValue?` — what is read is spelled, and what is spelled is
  read.
* `Detab.Json5.valueOf?_eq_some_iff` — **the tokens that spell a value are those from which it is
  read.**
* `Detab.Json5.spells_document`, `Detab.Json5.exists_document` — the tokens of an object are a list of
  members.
-/

namespace Detab.Json5

/-! ## Grammar -/

/-- The name that a token gives as a key. -/
def keyName? : Token → Option CodePoints
  | .word name _ => some name
  | .text content => some content
  | _ => none

mutual

/-- **The tokens that spell a value.** -/
inductive Spells : List Token → Value → Prop
  | word {name : CodePoints} {value : Value} :
      keyword? name = some value → Spells [.word name false] value
  | text {content : CodePoints} : Spells [.text content] (.text content)
  | numeral {n : Numeral} : Spells [.numeral n] (.numeral n)
  | array {tokens : List Token} {items : List Value} :
      SpellsItems tokens items → Spells (.openBracket :: tokens) (.array items)
  | object {tokens : List Token} {entries : List (CodePoints × Value)} :
      SpellsEntries tokens entries → Spells (.openBrace :: tokens) (.object entries)

/-- The tokens that spell the items of an array, with the closing bracket. -/
inductive SpellsItems : List Token → List Value → Prop
  | close : SpellsItems [.closeBracket] []
  | last {tokens : List Token} {item : Value} :
      Spells tokens item → SpellsItems (tokens ++ [.closeBracket]) [item]
  | more {tokens rest : List Token} {item : Value} {items : List Value} :
      Spells tokens item → SpellsItems rest items →
        SpellsItems (tokens ++ .comma :: rest) (item :: items)

/-- The tokens that spell the entries of an object, with the closing brace. -/
inductive SpellsEntries : List Token → List (CodePoints × Value) → Prop
  | close : SpellsEntries [.closeBrace] []
  | last {key : Token} {name : CodePoints} {tokens : List Token} {value : Value} :
      keyName? key = some name → Spells tokens value →
        SpellsEntries (key :: .colon :: (tokens ++ [.closeBrace])) [(name, value)]
  | more {key : Token} {name : CodePoints} {tokens rest : List Token} {value : Value}
      {entries : List (CodePoints × Value)} :
      keyName? key = some name → Spells tokens value → SpellsEntries rest entries →
        SpellsEntries (key :: .colon :: (tokens ++ .comma :: rest)) ((name, value) :: entries)

end

/-! ## What is read is spelled -/

/-- What a reader finds at the head of some tokens is spelled by the tokens that it takes. -/
def Sound {α : Type} (read : List Token → Option (α × List Token))
    (spells : List Token → α → Prop) : Prop :=
  ∀ tokens value rest, read tokens = some (value, rest) →
    ∃ used, tokens = used ++ rest ∧ spells used value

variable {fuel : Nat}

/-- The step for values: with less fuel, the readers of items and of members are sound.

**Proof sketch.** Along the cases of the reader: a word, a text and a number are one token each; an
array and an object are an opening token and what their readers take. -/
lemma sound_readValue? (hitems : ∀ k < fuel, Sound (readItems? k) SpellsItems)
    (hentries : ∀ k < fuel, Sound (readMembers? k) SpellsEntries) :
    Sound (readValue? fuel) Spells := by
  intro tokens value rest
  fun_cases readValue? fuel tokens with
  | case1 fuel tail name =>
    intro h
    obtain ⟨value', hkeyword, hsame⟩ := Option.map_eq_some_iff.mp h
    obtain ⟨rfl, rfl⟩ := Prod.mk.inj hsame
    exact ⟨[_], rfl, .word hkeyword⟩
  | case2 fuel tail content =>
    intro h
    obtain ⟨rfl, rfl⟩ := Prod.mk.inj (Option.some.inj h)
    exact ⟨[_], rfl, .text⟩
  | case3 fuel tail n =>
    intro h
    obtain ⟨rfl, rfl⟩ := Prod.mk.inj (Option.some.inj h)
    exact ⟨[_], rfl, .numeral⟩
  | case4 fuel tail =>
    intro h
    obtain ⟨⟨items, rest'⟩, hread, hsame⟩ := Option.map_eq_some_iff.mp h
    obtain ⟨rfl, rfl⟩ := Prod.mk.inj hsame
    obtain ⟨used, rfl, hused⟩ := hitems _ (Nat.lt_succ_self _) _ _ _ hread
    exact ⟨_ :: used, rfl, .array hused⟩
  | case5 fuel tail =>
    intro h
    obtain ⟨⟨entries, rest'⟩, hread, hsame⟩ := Option.map_eq_some_iff.mp h
    obtain ⟨rfl, rfl⟩ := Prod.mk.inj hsame
    obtain ⟨used, rfl, hused⟩ := hentries _ (Nat.lt_succ_self _) _ _ _ hread
    exact ⟨_ :: used, rfl, .object hused⟩
  | case6 => simp
  | case7 => simp

/-- The step for items, one value after another up to the closing bracket.

**Proof sketch.** Along the cases of the reader: the closing bracket, or a value with a comma or the
closing bracket behind it. -/
lemma sound_readItems? (hvalue : ∀ k < fuel, Sound (readValue? k) Spells)
    (hitems : ∀ k < fuel, Sound (readItems? k) SpellsItems) :
    Sound (readItems? fuel) SpellsItems := by
  intro tokens items rest
  fun_cases readItems? fuel tokens with
  | case1 tail =>
    intro h
    obtain ⟨rfl, rfl⟩ := Prod.mk.inj (Option.some.inj h)
    exact ⟨[_], rfl, .close⟩
  | case2 fuel tokens hopen item tail hread =>
    intro h
    obtain ⟨⟨items', rest'⟩, hrest, hsame⟩ := Option.map_eq_some_iff.mp h
    obtain ⟨rfl, rfl⟩ := Prod.mk.inj hsame
    obtain ⟨used, rfl, hused⟩ := hvalue _ (Nat.lt_succ_self _) _ _ _ hread
    obtain ⟨others, rfl, hothers⟩ := hitems _ (Nat.lt_succ_self _) _ _ _ hrest
    exact ⟨used ++ .comma :: others, by simp, .more hused hothers⟩
  | case3 fuel tokens hopen item tail hread =>
    intro h
    obtain ⟨rfl, rfl⟩ := Prod.mk.inj (Option.some.inj h)
    obtain ⟨used, rfl, hused⟩ := hvalue _ (Nat.lt_succ_self _) _ _ _ hread
    exact ⟨used ++ [.closeBracket], by simp, .last hused⟩
  | case4 => simp
  | case5 => simp

/-- The step for members, one key and value after another up to the closing brace.

**Proof sketch.** Along the cases of the reader: the closing brace, or a key, a colon and a value
with a comma or the closing brace behind it. -/
lemma sound_readMembers? (hvalue : ∀ k < fuel, Sound (readValue? k) Spells)
    (hentries : ∀ k < fuel, Sound (readMembers? k) SpellsEntries) :
    Sound (readMembers? fuel) SpellsEntries := by
  intro tokens entries rest
  fun_cases readMembers? fuel tokens with
  | case1 tail =>
    intro h
    obtain ⟨rfl, rfl⟩ := Prod.mk.inj (Option.some.inj h)
    exact ⟨[_], rfl, .close⟩
  | case2 fuel key tokens hopen name? name value tail hread hname =>
    intro h
    obtain ⟨⟨entries', rest'⟩, hrest, hsame⟩ := Option.map_eq_some_iff.mp h
    obtain ⟨rfl, rfl⟩ := Prod.mk.inj hsame
    obtain ⟨used, rfl, hused⟩ := hvalue _ (Nat.lt_succ_self _) _ _ _ hread
    obtain ⟨others, rfl, hothers⟩ := hentries _ (Nat.lt_succ_self _) _ _ _ hrest
    exact ⟨key :: .colon :: (used ++ .comma :: others), by simp, .more hname hused hothers⟩
  | case3 fuel key tokens hopen name? name value tail hread hname =>
    intro h
    obtain ⟨rfl, rfl⟩ := Prod.mk.inj (Option.some.inj h)
    obtain ⟨used, rfl, hused⟩ := hvalue _ (Nat.lt_succ_self _) _ _ _ hread
    exact ⟨key :: .colon :: (used ++ [.closeBrace]), by simp, .last hname hused⟩
  | case4 => simp
  | case5 => simp

/-- **What is read is spelled,** with any fuel. -/
lemma sound (fuel : Nat) :
    Sound (readValue? fuel) Spells ∧ Sound (readItems? fuel) SpellsItems ∧
      Sound (readMembers? fuel) SpellsEntries := by
  induction fuel using Nat.strongRecOn with
  | ind fuel ih =>
    have hvalue : ∀ k < fuel, Sound (readValue? k) Spells := fun k hk => (ih k hk).1
    have hitems : ∀ k < fuel, Sound (readItems? k) SpellsItems := fun k hk => (ih k hk).2.1
    have hentries : ∀ k < fuel, Sound (readMembers? k) SpellsEntries := fun k hk => (ih k hk).2.2
    exact ⟨sound_readValue? hitems hentries, sound_readItems? hvalue hitems,
      sound_readMembers? hvalue hentries⟩

/-! ## What is spelled is read -/

/-- A value begins with a token that ends nothing. -/
lemma Spells.exists_cons {tokens : List Token} {value : Value} (h : Spells tokens value) :
    ∃ token tail, tokens = token :: tail ∧ token ≠ .closeBracket := by
  cases h <;> exact ⟨_, _, rfl, by simp⟩

/-- A value is spelled by at least one token. -/
lemma Spells.length_pos {tokens : List Token} {value : Value} (h : Spells tokens value) :
    0 < tokens.length := by
  obtain ⟨token, tail, rfl, -⟩ := h.exists_cons
  simp

/-- Behind an item stands a comma or the closing bracket. -/
lemma readItems?_of_value {tokens rest : List Token} {item : Value} (hvalue : Spells tokens item) :
    readValue? fuel (tokens ++ rest) = some (item, rest) →
      readItems? (fuel + 1) (tokens ++ rest) =
        match rest with
        | .comma :: rest => (readItems? fuel rest).map fun (items, rest) => (item :: items, rest)
        | .closeBracket :: rest => some ([item], rest)
        | _ => none := by
  intro hread
  obtain ⟨token, tail, rfl, hopen⟩ := hvalue.exists_cons
  rw [readItems?.eq_2 _ _ (by simpa using hopen), hread]
  cases rest with
  | nil => rfl
  | cons token rest => cases token <;> rfl

/-- Behind a member stands a comma or the closing brace.

**Proof sketch.** A key is a word or a text, and the reader has one equation for each. -/
lemma readMembers?_of_value {key : Token} {name : CodePoints} {tokens rest : List Token}
    {value : Value} (hkey : keyName? key = some name) :
    readValue? fuel (tokens ++ rest) = some (value, rest) →
      readMembers? (fuel + 1) (key :: .colon :: (tokens ++ rest)) =
        match rest with
        | .comma :: rest =>
          (readMembers? fuel rest).map fun (entries, rest) => ((name, value) :: entries, rest)
        | .closeBrace :: rest => some ([(name, value)], rest)
        | _ => none := by
  intro hread
  fun_cases keyName? key with
  | case1 name' escaped =>
    obtain rfl := Option.some.inj hkey
    rw [readMembers?.eq_2, hread]
    cases rest with
    | nil => rfl
    | cons token rest => cases token <;> rfl
  | case2 content =>
    obtain rfl := Option.some.inj hkey
    rw [readMembers?.eq_3, hread]
    cases rest with
    | nil => rfl
    | cons token rest => cases token <;> rfl
  | case3 hword htext => simp [keyName?] at hkey

mutual

/-- What is spelled is read, with as much fuel as there are tokens, twice over.

**Proof sketch.** By the clauses of the spelling. Items and members are read by their own lemmas,
which take one unit of fuel less. -/
lemma Spells.readValue? {used : List Token} {value : Value} (h : Spells used value) {fuel : Nat}
    (hfuel : 2 * used.length ≤ fuel + 1) (rest : List Token) :
    readValue? fuel (used ++ rest) = some (value, rest) := by
  have hpos := h.length_pos
  obtain ⟨fuel, rfl⟩ : ∃ k, fuel = k + 1 := ⟨fuel - 1, by omega⟩
  cases h with
  | word hkeyword => simp [Json5.readValue?, hkeyword]
  | text => simp [Json5.readValue?]
  | numeral => simp [Json5.readValue?]
  | array hitems =>
    rw [List.length_cons] at hfuel
    have hread := hitems.readItems? (by omega : _ ≤ fuel + 2) rest
    simp [Json5.readValue?, hread]
  | object hentries =>
    rw [List.length_cons] at hfuel
    have hread := hentries.readMembers? (by omega : _ ≤ fuel + 2) rest
    simp [Json5.readValue?, hread]

/-- **Items that are spelled are read,** whatever comes behind them, if there is fuel for twice as
many steps as there are tokens.

**Proof sketch.** By the clauses of the spelling. Every value has at least one token, which pays for
the two units of fuel that a round takes. -/
lemma SpellsItems.readItems? {used : List Token} {items : List Value} (h : SpellsItems used items)
    {fuel : Nat} (hfuel : 2 * used.length ≤ fuel + 2) (rest : List Token) :
    readItems? fuel (used ++ rest) = some (items, rest) := by
  cases h with
  | close => cases fuel <;> rfl
  | last hitem =>
    have hpos := hitem.length_pos
    rw [List.length_append, List.length_singleton] at hfuel
    obtain ⟨fuel, rfl⟩ : ∃ k, fuel = k + 1 := ⟨fuel - 1, by omega⟩
    rw [List.append_assoc, List.singleton_append,
      readItems?_of_value hitem (hitem.readValue? (by omega) _)]
  | more hitem hitems =>
    have hpos := hitem.length_pos
    rw [List.length_append, List.length_cons] at hfuel
    obtain ⟨fuel, rfl⟩ : ∃ k, fuel = k + 1 := ⟨fuel - 1, by omega⟩
    have hread := hitems.readItems? (by omega : _ ≤ fuel + 2) rest
    rw [List.append_assoc, List.cons_append,
      readItems?_of_value hitem (hitem.readValue? (by omega) _)]
    simp [hread]

/-- **Members that are spelled are read,** in the same way. -/
lemma SpellsEntries.readMembers? {used : List Token} {entries : List (CodePoints × Value)}
    (h : SpellsEntries used entries) {fuel : Nat} (hfuel : 2 * used.length ≤ fuel + 2)
    (rest : List Token) : readMembers? fuel (used ++ rest) = some (entries, rest) := by
  cases h with
  | close => cases fuel <;> rfl
  | last hkey hvalue =>
    rw [List.length_cons, List.length_cons, List.length_append, List.length_singleton] at hfuel
    obtain ⟨fuel, rfl⟩ : ∃ k, fuel = k + 1 := ⟨fuel - 1, by omega⟩
    rw [List.cons_append, List.cons_append, List.append_assoc, List.singleton_append,
      readMembers?_of_value hkey (hvalue.readValue? (by omega) _)]
  | more hkey hvalue hentries =>
    rw [List.length_cons, List.length_cons, List.length_append, List.length_cons] at hfuel
    obtain ⟨fuel, rfl⟩ : ∃ k, fuel = k + 1 := ⟨fuel - 1, by omega⟩
    have hread := hentries.readMembers? (by omega : _ ≤ fuel + 2) rest
    rw [List.cons_append, List.cons_append, List.append_assoc, List.cons_append,
      readMembers?_of_value hkey (hvalue.readValue? (by omega) _)]
    simp [hread]

end

/-- **The tokens that spell a value are those from which it is read.**

**Proof sketch.** From the left the reader is sound, and has taken all tokens. From the right it
reads what is spelled, with twice as much fuel as there are tokens. -/
lemma valueOf?_eq_some_iff {tokens : List Token} {value : Value} :
    valueOf? tokens = some value ↔ Spells tokens value := by
  unfold valueOf?
  constructor
  · intro h
    split at h
    · rename_i value' hread
      obtain rfl := Option.some.inj h
      obtain ⟨used, rfl, hused⟩ := (sound _).1 _ _ _ hread
      rwa [List.append_nil]
    · simp at h
  · intro h
    have hread := h.readValue? (Nat.le_succ (2 * tokens.length)) []
    rw [List.append_nil] at hread
    rw [hread]

/-! ## Objects as they are written -/

/-- **A member of an object as it is written:** a token for the key, with the name that it gives, and
tokens for the value. -/
structure Member where
  key : Token
  name : CodePoints
  tokens : List Token
  value : Value
  names : keyName? key = some name
  spells : Spells tokens value

namespace Member

/-- The entry that a member makes. -/
def entry (member : Member) : CodePoints × Value :=
  (member.name, member.value)

/-- A member up to the comma or brace behind it, and what follows. -/
def before (member : Member) (rest : List Token) : List Token :=
  member.key :: .colon :: (member.tokens ++ rest)

/-- What follows the opening brace of an object with some members. -/
def list (trailing : Bool) : List Member → List Token
  | [] => [.closeBrace]
  | [member] => member.before (if trailing then [.comma, .closeBrace] else [.closeBrace])
  | member :: next :: rest => member.before (.comma :: list trailing (next :: rest))

end Member

/-- **An object as it is written,** with a comma behind the last member or without. -/
def document (trailing : Bool) (members : List Member) : List Token :=
  .openBrace :: Member.list trailing members

variable {members : List Member} {trailing : Bool}

/-- A list of members, with a comma behind the last one or not, spells the entries that they give.
-/
lemma spellsEntries_list (trailing : Bool) (members : List Member) :
    SpellsEntries (Member.list trailing members) (members.map Member.entry) := by
  fun_induction Member.list trailing members with
  | case1 => exact .close
  | case2 member =>
    cases trailing with
    | false => exact .last member.names member.spells
    | true => exact .more member.names member.spells .close
  | case3 member next rest ih => exact .more member.names member.spells ih

/-- **An object has the entries that are written in it.** -/
lemma spells_document (trailing : Bool) (members : List Member) :
    Spells (document trailing members) (.object (members.map Member.entry)) :=
  .object (spellsEntries_list trailing members)

/-- Conversely, tokens that spell some entries are a list of members. -/
lemma SpellsEntries.exists_list {tokens : List Token} {entries : List (CodePoints × Value)}
    (h : SpellsEntries tokens entries) :
    ∃ trailing members, tokens = Member.list trailing members ∧
      entries = members.map Member.entry := by
  cases h with
  | close => exact ⟨false, [], rfl, rfl⟩
  | last hkey hvalue => exact ⟨false, [⟨_, _, _, _, hkey, hvalue⟩], rfl, rfl⟩
  | more hkey hvalue hentries =>
    obtain ⟨trailing, members, rfl, rfl⟩ := hentries.exists_list
    cases members with
    | nil => exact ⟨true, [⟨_, _, _, _, hkey, hvalue⟩], rfl, rfl⟩
    | cons next rest => exact ⟨trailing, ⟨_, _, _, _, hkey, hvalue⟩ :: next :: rest, rfl, rfl⟩

/-- **Every object is written like this.** -/
lemma exists_document {tokens : List Token} {entries : List (CodePoints × Value)}
    (h : Spells tokens (.object entries)) :
    ∃ trailing members, tokens = document trailing members ∧ entries = members.map Member.entry := by
  cases h with
  | word hkeyword =>
    unfold keyword? at hkeyword
    split at hkeyword <;> simp at hkeyword
  | object hentries =>
    obtain ⟨trailing, members, rfl, rfl⟩ := hentries.exists_list
    exact ⟨trailing, members, rfl, rfl⟩

/-! ## Nesting -/

/-- Whether a value holds no other values. -/
def Value.isFlat : Value → Bool
  | .array _ => false
  | .object _ => false
  | _ => true

variable {depth deepest : Nat}

/-- A key is neither a bracket nor a brace, so it does not count for how deep a document is nested.
-/
lemma nestingFrom_key {key : Token} {name : CodePoints} (h : keyName? key = some name)
    (rest : List Token) : nestingFrom depth deepest (key :: rest) = nestingFrom depth deepest rest := by
  cases key with
  | word | text => rfl
  | _ => simp [keyName?] at h

/-- A value that holds no other values does not count for how deep a document is nested. -/
lemma Spells.nestingFrom_append {tokens : List Token} {value : Value} (h : Spells tokens value)
    (hflat : value.isFlat = true) (rest : List Token) :
    nestingFrom depth deepest (tokens ++ rest) = nestingFrom depth deepest rest := by
  cases h with
  | word | text | numeral => rfl
  | array | object => simp [Value.isFlat] at hflat

/-- An object whose values hold no other values is nested no deeper than itself.

**Proof sketch.** Along the recursion of the list. No member opens a brace or a bracket, and the one
that closes the object is met at last. -/
lemma nestingFrom_list {members : List Member} (hflat : ∀ member ∈ members, member.value.isFlat = true)
    (trailing : Bool) :
    nestingFrom depth deepest (Member.list trailing members) = deepest := by
  have hbefore : ∀ member ∈ members, ∀ rest,
      nestingFrom depth deepest (member.before rest) = nestingFrom depth deepest rest := by
    intro member hmember rest
    rw [Member.before, nestingFrom_key member.names]
    exact member.spells.nestingFrom_append (hflat member hmember) rest
  fun_induction Member.list trailing members with
  | case1 => rfl
  | case2 member =>
    rw [hbefore member (List.mem_singleton_self _)]
    cases trailing <;> rfl
  | case3 member next rest ih =>
    rw [hbefore member List.mem_cons_self]
    exact ih (fun m hm => hflat m (List.mem_cons_of_mem _ hm))
      fun m hm => hbefore m (List.mem_cons_of_mem _ hm)

/-- An object whose values hold no others is nested once. -/
lemma nesting_document {members : List Member}
    (hflat : ∀ member ∈ members, member.value.isFlat = true) (trailing : Bool) :
    nesting (document trailing members) = 1 :=
  nestingFrom_list hflat trailing

end Detab.Json5
