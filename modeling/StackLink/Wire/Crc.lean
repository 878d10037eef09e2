/-!
# The frame checksum

Frames end in an 8-bit cyclic redundancy check with generator polynomial
`x^8 + x^2 + x + 1` (the byte `0x07`), initial value zero, no reflection and no
final complement. Each byte is folded into the register and then eight shift
steps are taken, most significant bit first; a one shifted out of the top
brings the generator back in.
-/

namespace StackLink.Crc

/-- The generator polynomial without its leading term. -/
def poly : UInt8 := 0x07

/-- One shift of the register: out goes the top bit, and if it was set the generator is added. -/
def shift (crc : UInt8) : UInt8 :=
  if crc &&& 0x80 ≠ 0 then (crc <<< 1) ^^^ poly else crc <<< 1

/-- Folds one byte into the register: add it, then shift eight times. -/
def addByte (crc b : UInt8) : UInt8 := Nat.repeat shift 8 (crc ^^^ b)

/-- The checksum of a byte string. -/
def crc8 (bs : List UInt8) : UInt8 := bs.foldl addByte 0

end StackLink.Crc
