/-!
# Hexadecimal and decimal text of numbers and bytes

The fixed spellings the library prints numbers and byte strings in: upper-case
digits padded to a width (`0x%02X`-style fields of the wire protocol and the
listings), lower-case digit pairs for byte strings and digests, and signed
decimals with an optional explicit plus sign.

Digits are computed by `Nat.toDigits`, which for base 16 writes lower-case
letters; the upper-case form maps each letter up, so both spellings have the
same length and the width padding is shared.
-/

namespace StackLink.Hex

/-- The lower-case hexadecimal digits of `n`, without leading zeros (`0` is `"0"`). -/
def lowerDigits (n : Nat) : List Char := Nat.toDigits 16 n

/-- The upper-case hexadecimal digits of `n`, without leading zeros. -/
def upperDigits (n : Nat) : List Char := (Nat.toDigits 16 n).map Char.toUpper

/-- Left-pads a digit list with zeros up to `width` characters; longer lists stay whole. -/
def padZeros (width : Nat) (ds : List Char) : List Char :=
  List.replicate (width - ds.length) '0' ++ ds

/-- `n` in upper-case hexadecimal, at least `width` digits wide. -/
def upper (width n : Nat) : String := String.ofList (padZeros width (upperDigits n))

/-- `n` in lower-case hexadecimal, at least `width` digits wide. -/
def lower (width n : Nat) : String := String.ofList (padZeros width (lowerDigits n))

/-- A byte string as lower-case digit pairs, with no separator. -/
def ofBytes (bs : List UInt8) : String :=
  String.join (bs.map fun b => lower 2 b.toNat)

/-- A byte string as upper-case digit pairs separated by single blanks. -/
def spaced (bs : List UInt8) : String :=
  " ".intercalate (bs.map fun b => upper 2 b.toNat)

/-- The value of one hexadecimal digit, of either case. -/
def digitValue? (c : Char) : Option Nat :=
  if '0' ≤ c ∧ c ≤ '9' then some (c.toNat - '0'.toNat)
  else if 'a' ≤ c ∧ c ≤ 'f' then some (c.toNat - 'a'.toNat + 10)
  else if 'A' ≤ c ∧ c ≤ 'F' then some (c.toNat - 'A'.toNat + 10)
  else none

/-- Reads digit pairs back into bytes; an odd count or a non-digit is refused. -/
def toBytes? : List Char → Option (List UInt8)
  | [] => some []
  | a :: b :: rest =>
    match digitValue? a, digitValue? b with
    | some x, some y => (toBytes? rest).map fun t => UInt8.ofNat (16 * x + y) :: t
    | _, _ => none
  | [_] => none

end StackLink.Hex

namespace StackLink.Decimal

/-- The decimal text of an integer, with a minus sign when negative. -/
def ofInt (i : Int) : String := toString i

/-- The decimal text of an integer with its sign always written (`+3`, `-3`, `+0`). -/
def signed (i : Int) : String := if i < 0 then toString i else "+" ++ toString i

end StackLink.Decimal
