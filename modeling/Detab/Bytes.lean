set_option relaxedAutoImplicit false
set_option autoImplicit false

/-!
# Byte strings

Names, paths and outputs are short and are taken apart from the left, so they are lists of bytes.
The contents of files can be long and are only searched and copied, so they are packed arrays;
`ByteArray.data` is their view as a list.

## Main definitions

* `Detab.Bytes` — a byte string as a list.
* `Detab.unpack`, `Detab.pack` — from contents to a byte string and back.
-/

namespace Detab

/-- A string of bytes: a file name, a path, or what was written to an output. -/
abbrev Bytes := List UInt8

/-- The bytes of some contents. -/
def unpack (contents : ByteArray) : Bytes :=
  contents.data.toList

/-- Contents made of the given bytes. -/
def pack (bytes : Bytes) : ByteArray :=
  ⟨bytes.toArray⟩

/-- Equality of contents is decided in the same way whatever else is imported. -/
instance (priority := high) decidableEqContents : DecidableEq ByteArray :=
  ByteArray.instDecidableEq

/-- Packing bytes and unpacking them again gives the same bytes: no byte is lost or changed on the
way into an array. -/
@[simp]
theorem unpack_pack (bytes : Bytes) : unpack (pack bytes) = bytes := rfl

/-- Unpacking an array and packing it again gives the same array, so two arrays with the same bytes
are equal. -/
@[simp]
theorem pack_unpack (contents : ByteArray) : pack (unpack contents) = contents := rfl

/-- The bytes of two arrays, one behind the other. This is what carries appending to a buffer over
to lists of bytes. -/
@[simp]
theorem unpack_append (a b : ByteArray) : unpack (a ++ b) = unpack a ++ unpack b := by
  simp [unpack]

/-- An array holds as many bytes as its size says. -/
@[simp]
theorem length_unpack (contents : ByteArray) : (unpack contents).length = contents.size := rfl

end Detab
