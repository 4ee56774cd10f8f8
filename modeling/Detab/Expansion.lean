import Detab.Bytes

set_option relaxedAutoImplicit false
set_option autoImplicit false

/-!
# Expanding tabs

Every tab of some contents is replaced with a fixed number of spaces, the *width*; nothing else
changes. The result is built in one buffer that is reserved beforehand, so its length is computed
first, and an expansion is refused when that length has no 64-bit value or cannot be reserved.

## Main definitions

* `Detab.Expansion.substitute` — the expansion of a byte string, byte by byte.
* `Detab.Expansion.Cursor` — where the copying of the contents has got to.
* `Detab.Expansion.expand` — the expansion of some contents, or none when there is no tab.

## Main results

* `Detab.Expansion.unpack_addRepeated` — what adding a run of one byte does to a buffer.
-/

namespace Detab

/-- The number of spaces that stands for a tab. -/
abbrev Width := UInt64

namespace Expansion

/-- The horizontal tab. -/
def tab : UInt8 := 0x09

/-- The space. -/
def space : UInt8 := 0x20

/-- What replaces one byte: spaces for a tab, and the byte itself for any other. -/
def replacement (width : Nat) (b : UInt8) : Bytes :=
  if b = tab then List.replicate width space else [b]

/-- **The expansion of a byte string**, byte by byte. -/
def substitute (width : Nat) (bytes : Bytes) : Bytes :=
  bytes.flatMap (replacement width)

/-! ## Refusals -/

/-- Why no buffer of some length can be had. -/
inductive ReservationError where
  /-- The length is over the greatest length that any buffer can have. -/
  | capacityExceeded
  /-- The machine does not have that much memory. -/
  | outOfMemory
  deriving DecidableEq, Repr

/-- The wording of a refused reservation. -/
def ReservationError.message : ReservationError → String
  | .capacityExceeded =>
    "memory allocation failed because the computed capacity exceeded the collection's maximum"
  | .outOfMemory => "memory allocation failed because the memory allocator returned an error"

/-- Why an expansion is refused. -/
inductive Error where
  /-- The length of the result is not a 64-bit number. -/
  | tooLarge (tabs : Nat) (width : Width)
  /-- A buffer of the length of the result cannot be reserved. -/
  | reservation (length : Nat) (cause : ReservationError)
  deriving DecidableEq, Repr

/-- The messages of a refusal, from the outermost to its cause. -/
def Error.chain : Error → List String
  | .tooLarge tabs width => [s!"Replacing {tabs} tabs with {width} spaces each is too large"]
  | .reservation length cause => [s!"allocating {length} bytes", cause.message]

/-- The greatest length of a buffer. -/
def maxCapacity : Nat := 0x7FFFFFFFFFFFFFFF

/-- **Reserving a buffer.** It fails when the length is over `maxCapacity`, or when the machine,
which `canReserve` speaks for, refuses it. -/
def reserve (canReserve : Nat → Bool) (length : Nat) : Except ReservationError ByteArray :=
  if maxCapacity < length then .error .capacityExceeded
  else if canReserve length then .ok (ByteArray.emptyWithCapacity length)
  else .error .outOfMemory

/-- The length of the result for contents of `size` bytes, if it is a 64-bit number. The product is
checked before the sum. -/
def length? (size tabs : Nat) (width : Width) : Option Nat :=
  let spaces := tabs * width.toNat
  if spaces < UInt64.size then
    let length := spaces + (size - tabs)
    if length < UInt64.size then some length else none
  else none

/-! ## Copying -/

/-- The positions of the tabs before `n`, in front of a list of later positions. -/
def tabsBefore (contents : ByteArray) : (n : Nat) → n ≤ contents.size → List Nat → List Nat
  | 0, _, later => later
  | n + 1, h, later =>
    have : n < contents.size := h
    tabsBefore contents n (Nat.le_of_lt this)
      (if contents[n] = tab then n :: later else later)

/-- The positions of the tabs, in order. -/
def tabPositions (contents : ByteArray) : List Nat :=
  tabsBefore contents contents.size (Nat.le_refl _) []

/-- A buffer with `n` copies of a byte added to its end. -/
def addRepeated (buffer : ByteArray) (b : UInt8) : Nat → ByteArray
  | 0 => buffer
  | n + 1 => addRepeated (buffer.push b) b n

/-- **What repeated pushing adds:** the buffer as it was, and then `n` times the byte. -/
theorem unpack_addRepeated (buffer : ByteArray) (b : UInt8) (n : Nat) :
    unpack (addRepeated buffer b n) = unpack buffer ++ List.replicate n b := by
  induction n generalizing buffer with
  | zero => simp [addRepeated]
  | succ n ih =>
    rw [addRepeated, ih]
    simp [unpack, List.replicate_succ]

/-- **Where the copying has got to:** everything before `start` stands expanded in `expanded`. -/
structure Cursor where
  /-- The first byte that is not copied yet. -/
  start : Nat
  /-- The expansion of the bytes before `start`. -/
  expanded : ByteArray

namespace Cursor

variable (contents : ByteArray) (width : Width)

/-- Copies up to the tab at `position` and puts spaces in its place. -/
def passTab (cursor : Cursor) (position : Nat) : Cursor where
  start := position + 1
  expanded :=
    addRepeated (cursor.expanded ++ contents.extract cursor.start position) space width.toNat

/-- Copies what is left after the last tab. -/
def finish (cursor : Cursor) : ByteArray :=
  cursor.expanded ++ contents.extract cursor.start contents.size

end Cursor

/-- **The expansion of some contents**, or `none` when they hold no tab and need none. -/
def expand (canReserve : Nat → Bool) (contents : ByteArray) (width : Width) :
    Except Error (Option ByteArray) :=
  match tabPositions contents with
  | [] => .ok none
  | positions =>
    let tabs := positions.length
    match length? contents.size tabs width with
    | none => .error (.tooLarge tabs width)
    | some length =>
      match reserve canReserve length with
      | .error cause => .error (.reservation length cause)
      | .ok buffer =>
        let cursor := positions.foldl (Cursor.passTab contents width) ⟨0, buffer⟩
        .ok (some (cursor.finish contents))

end Expansion

end Detab
