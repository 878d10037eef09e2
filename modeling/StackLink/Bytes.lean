/-!
# Little-endian fields

Every multi-byte field of the wire protocol, the code stream and the container
layout is little-endian: the least significant byte comes first. A field is
written by `le16` and `le32` and read back by `readLE16` and `readLE32`, which
take the bytes at an offset and return nothing when the field would run past
the end; `writeLE16` overwrites a field where it stands.
-/

namespace StackLink.Bytes

/-- The two bytes of the low 16 bits of `n`, least significant first. -/
def le16 (n : Nat) : List UInt8 := [UInt8.ofNat n, UInt8.ofNat (n / 256)]

/-- The four bytes of the low 32 bits of `n`, least significant first. -/
def le32 (n : Nat) : List UInt8 :=
  [UInt8.ofNat n, UInt8.ofNat (n / 256), UInt8.ofNat (n / 65536), UInt8.ofNat (n / 16777216)]

/-- The value of a little-endian byte list of any length. -/
def leValue : List UInt8 → Nat
  | [] => 0
  | b :: rest => b.toNat + 256 * leValue rest

/-- The little-endian field of `width` bytes at `offset`, when it lies inside `bs`. -/
def readLE (width : Nat) (bs : List UInt8) (offset : Nat) : Option Nat :=
  if offset + width ≤ bs.length then some (leValue ((bs.drop offset).take width)) else none

/-- The 16-bit field at `offset`. -/
def readLE16 (bs : List UInt8) (offset : Nat) : Option Nat := readLE 2 bs offset

/-- The 32-bit field at `offset`. -/
def readLE32 (bs : List UInt8) (offset : Nat) : Option Nat := readLE 4 bs offset

/-- `bs` with the 16-bit field at `offset` overwritten, in place, by the low 16 bits of `n`. -/
def writeLE16 (bs : List UInt8) (offset n : Nat) : List UInt8 :=
  (bs.set offset (UInt8.ofNat n)).set (offset + 1) (UInt8.ofNat (n / 256))

end StackLink.Bytes

namespace StackLink.Bytes

/-- The two's-complement reading of the low `bits` bits of `n`. -/
def signed (bits n : Nat) : Int :=
  let m := n % Nat.pow 2 bits
  if m < Nat.pow 2 (bits - 1) then m else (m : Int) - Nat.pow 2 bits

end StackLink.Bytes

namespace StackLink

/-- An access outside a byte string, which stops the program: reading index `i`, or taking
the tail from `i`, of a string of `len` bytes. -/
inductive RangeFault where
  | index (i : Int) (len : Nat)
  | sliceFrom (i : Int) (len : Nat)
deriving DecidableEq, Repr

/-- The text of a range fault: a negative position is printed alone, since no length can
make it valid. -/
def RangeFault.message : RangeFault → String
  | .index i len =>
    if i < 0 then s!"runtime error: index out of range [{i}]"
    else s!"runtime error: index out of range [{i}] with length {len}"
  | .sliceFrom i len =>
    if i < 0 then s!"runtime error: slice bounds out of range [{i}:]"
    else s!"runtime error: slice bounds out of range [{i}:{len}]"

end StackLink
