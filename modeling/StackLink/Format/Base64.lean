/-!
# Base64

The standard alphabet of RFC 4648 §4 with padding: every three bytes become four
characters, and a final one or two bytes become two or three characters followed
by one or two `=`. This is how byte strings appear in JSON documents.
-/

namespace StackLink.Base64

/-- The sixty-four characters, in the order of the values they stand for. -/
def alphabet : List Char :=
  "ABCDEFGHIJKLMNOPQRSTUVWXYZabcdefghijklmnopqrstuvwxyz0123456789+/".toList

/-- The character for a six-bit value. -/
def digit (n : Nat) : Char := alphabet.getD (n % 64) 'A'

/-- The characters for a group of up to three bytes, read as a big-endian number. -/
def group (bs : List UInt8) : List Char :=
  let v := bs.foldl (fun acc b => acc * 256 + b.toNat) 0 * Nat.pow 256 (3 - bs.length)
  let cs := [digit (v / 262144), digit (v / 4096), digit (v / 64), digit v]
  cs.take (bs.length + 1) ++ List.replicate (3 - bs.length) '='

/-- The padded encoding of a byte string. -/
def encodeChars : List UInt8 → List Char
  | a :: b :: c :: rest => group [a, b, c] ++ encodeChars rest
  | [] => []
  | bs => group bs

/-- The padded encoding of a byte string, as text. -/
def encode (bs : List UInt8) : String := String.ofList (encodeChars bs)

end StackLink.Base64
