/-!
# SHA-256

The digest a module carries over its contents (FIPS 180-4). The message is
padded with a one bit, zeros and its bit length as a 64-bit big-endian number
to a multiple of 64 bytes; each 64-byte block is expanded into 64 words and
folded into eight 32-bit state words by 64 rounds; the digest is the final
state, big-endian.
-/

namespace StackLink.Sha256

/-- The round constants: the first 32 bits of the fractional parts of the cube roots of the
first 64 primes. -/
def roundConstants : Array UInt32 := #[
  0x428a2f98, 0x71374491, 0xb5c0fbcf, 0xe9b5dba5, 0x3956c25b, 0x59f111f1, 0x923f82a4, 0xab1c5ed5,
  0xd807aa98, 0x12835b01, 0x243185be, 0x550c7dc3, 0x72be5d74, 0x80deb1fe, 0x9bdc06a7, 0xc19bf174,
  0xe49b69c1, 0xefbe4786, 0x0fc19dc6, 0x240ca1cc, 0x2de92c6f, 0x4a7484aa, 0x5cb0a9dc, 0x76f988da,
  0x983e5152, 0xa831c66d, 0xb00327c8, 0xbf597fc7, 0xc6e00bf3, 0xd5a79147, 0x06ca6351, 0x14292967,
  0x27b70a85, 0x2e1b2138, 0x4d2c6dfc, 0x53380d13, 0x650a7354, 0x766a0abb, 0x81c2c92e, 0x92722c85,
  0xa2bfe8a1, 0xa81a664b, 0xc24b8b70, 0xc76c51a3, 0xd192e819, 0xd6990624, 0xf40e3585, 0x106aa070,
  0x19a4c116, 0x1e376c08, 0x2748774c, 0x34b0bcb5, 0x391c0cb3, 0x4ed8aa4a, 0x5b9cca4f, 0x682e6ff3,
  0x748f82ee, 0x78a5636f, 0x84c87814, 0x8cc70208, 0x90befffa, 0xa4506ceb, 0xbef9a3f7, 0xc67178f2]

/-- The initial state: the first 32 bits of the fractional parts of the square roots of the
first 8 primes. -/
def initialState : Array UInt32 :=
  #[0x6a09e667, 0xbb67ae85, 0x3c6ef372, 0xa54ff53a, 0x510e527f, 0x9b05688c, 0x1f83d9ab, 0x5be0cd19]

/-- Rotation right by `n` bits. -/
def rotr (x : UInt32) (n : UInt32) : UInt32 := (x >>> n) ||| (x <<< (32 - n))

/-- The 32-bit big-endian word at `i` of a block. -/
def wordAt (block : Array UInt8) (i : Nat) : UInt32 :=
  let b (k : Nat) : UInt32 := (block.getD (4 * i + k) 0).toUInt32
  (b 0 <<< 24) ||| (b 1 <<< 16) ||| (b 2 <<< 8) ||| b 3

/-- The 64-word schedule of a 64-byte block. -/
def schedule (block : Array UInt8) : Array UInt32 := Id.run do
  let mut w : Array UInt32 := (Array.range 16).map (wordAt block)
  for t in [16:64] do
    let x := w.getD (t - 15) 0
    let y := w.getD (t - 2) 0
    let s0 := rotr x 7 ^^^ rotr x 18 ^^^ (x >>> 3)
    let s1 := rotr y 17 ^^^ rotr y 19 ^^^ (y >>> 10)
    w := w.push (w.getD (t - 16) 0 + s0 + w.getD (t - 7) 0 + s1)
  return w

/-- Folds one block into the state. -/
def compress (state : Array UInt32) (block : Array UInt8) : Array UInt32 := Id.run do
  let w := schedule block
  let mut v := state
  for t in [0:64] do
    let a := v.getD 0 0
    let b := v.getD 1 0
    let c := v.getD 2 0
    let d := v.getD 3 0
    let e := v.getD 4 0
    let f := v.getD 5 0
    let g := v.getD 6 0
    let h := v.getD 7 0
    let s1 := rotr e 6 ^^^ rotr e 11 ^^^ rotr e 25
    let ch := (e &&& f) ^^^ (~~~e &&& g)
    let t1 := h + s1 + ch + roundConstants.getD t 0 + w.getD t 0
    let s0 := rotr a 2 ^^^ rotr a 13 ^^^ rotr a 22
    let maj := (a &&& b) ^^^ (a &&& c) ^^^ (b &&& c)
    let t2 := s0 + maj
    v := #[t1 + t2, a, b, c, d + t1, e, f, g]
  return (Array.range 8).map fun i => state.getD i 0 + v.getD i 0

/-- The message padded to whole blocks. -/
def pad (msg : List UInt8) : List UInt8 :=
  let bits := 8 * msg.length
  let zeros := (119 - msg.length % 64) % 64
  let length : List UInt8 := (List.range 8).reverse.map fun k => UInt8.ofNat (bits >>> (8 * k))
  msg ++ [(0x80 : UInt8)] ++ List.replicate zeros (0 : UInt8) ++ length

/-- The digest of a byte string. -/
def hash (msg : List UInt8) : List UInt8 :=
  let padded := (pad msg).toArray
  let blocks := padded.size / 64
  let state := (List.range blocks).foldl
    (fun st i => compress st (padded.extract (64 * i) (64 * i + 64))) initialState
  state.toList.flatMap fun (x : UInt32) =>
    [(x >>> 24).toUInt8, (x >>> 16).toUInt8, (x >>> 8).toUInt8, x.toUInt8]

end StackLink.Sha256
