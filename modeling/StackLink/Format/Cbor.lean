/-!
# CBOR data items

Modules travel as CBOR (RFC 8949). This module reads a byte string into one
data item, checking that it is well formed, and writes the few kinds of items a
module is made of in canonical form (every length and integer in its shortest
head).

Reading follows the rules of the decoder modules are read with. A whole input
must be exactly one item: nothing at all is the end of input, a cut item is an
unexpected end, and bytes after the item are extraneous. Heads with the
reserved additional information 28–30, an indefinite length on an integer or a
tag, a stray break code, a two-byte simple value below 32 and chunks of the
wrong kind inside an indefinite-length string are syntax errors. Nesting is
limited to 32 levels, arrays to 131072 elements and maps to 131072 pairs.

Text strings are kept as raw bytes here; whether they are UTF-8 is checked only
where a text is actually used.
-/

namespace StackLink.Cbor

/-- A decoded data item. Indefinite-length strings are joined; floats and simple values keep
only their head. -/
inductive Item where
  | uint (n : Nat)
  /-- The negative integer `-1 - n`. -/
  | nint (n : Nat)
  | bytes (b : List UInt8)
  | text (b : List UInt8)
  | array (xs : List Item)
  | map (kvs : List (Item × Item))
  | tag (n : Nat) (x : Item)
  /-- Major type 7: additional information and value of the head. -/
  | prim (ai : Nat) (val : Nat)
deriving Repr, Inhabited

/-- The name of a major type, as the decoder's messages spell it. -/
def majorName : Nat → String
  | 0 => "positive integer"
  | 1 => "negative integer"
  | 2 => "byte string"
  | 3 => "UTF-8 text string"
  | 4 => "array"
  | 5 => "map"
  | 6 => "tag"
  | _ => "primitives"

/-- The major type of an item. -/
def Item.major : Item → Nat
  | .uint _ => 0
  | .nint _ => 1
  | .bytes _ => 2
  | .text _ => 3
  | .array _ => 4
  | .map _ => 5
  | .tag .. => 6
  | .prim .. => 7

/-- Why a byte string is not one well-formed item. -/
inductive ReadError where
  | eof
  | unexpectedEof
  | extraneous (count index : Nat)
  | unexpectedBreak
  | invalidInfo (ai major : Nat)
  | invalidSimple (v : Nat)
  | wrongChunk (chunk outer : Nat)
  | indefiniteChunk (outer : Nat)
  | tooDeep
  | tooManyElements
  | tooManyPairs
  | stringTooLong (major n : Nat)
  | containerTooLong (major n : Nat)
deriving DecidableEq, Repr

/-- The text of a read error. -/
def ReadError.message : ReadError → String
  | .eof => "EOF"
  | .unexpectedEof => "unexpected EOF"
  | .extraneous n i => s!"cbor: {n} bytes of extraneous data starting at index {i}"
  | .unexpectedBreak => "cbor: unexpected \"break\" code"
  | .invalidInfo ai t => s!"cbor: invalid additional information {ai} for type " ++ majorName t
  | .invalidSimple v => s!"cbor: invalid simple value {v} for type primitives"
  | .wrongChunk c t =>
    "cbor: wrong element type " ++ majorName c ++ " for indefinite-length " ++ majorName t
  | .indefiniteChunk t => "cbor: indefinite-length " ++ majorName t ++ " chunk is not definite-length"
  | .tooDeep => "cbor: exceeded max nested level 32"
  | .tooManyElements => "cbor: exceeded max number of elements 131072 for CBOR array"
  | .tooManyPairs => "cbor: exceeded max number of key-value pairs 131072 for CBOR map"
  | .stringTooLong t n => "cbor: " ++ majorName t ++ s!" length {n} is too large, causing integer overflow"
  | .containerTooLong t n =>
    "cbor: " ++ majorName t ++ s!" length {n} is too large, it would cause integer overflow"

/-- The deepest nesting accepted. -/
def maxNesting : Nat := 32

/-- The most elements of an array, or pairs of a map. -/
def maxElements : Nat := 131072

/-- A big-endian number from `n` bytes at `off`. -/
def beAt (data : Array UInt8) (off n : Nat) : Nat :=
  (List.range n).foldl (fun acc k => 256 * acc + (data.getD (off + k) 0).toNat) 0

/-- A head: major type, additional information, argument, and the offset after it. An
indefinite length has additional information 31 and argument 0. -/
def readHead (data : Array UInt8) (off : Nat) : Except ReadError (Nat × Nat × Nat × Nat) :=
  match data[off]? with
  | none => .error .unexpectedEof
  | some b =>
    let t := b.toNat / 32
    let ai := b.toNat % 32
    let off := off + 1
    let avail := data.size - off
    if ai < 24 then .ok (t, ai, ai, off)
    else if ai = 24 then
      if avail < 1 then .error .unexpectedEof
      else
        let v := beAt data off 1
        if t = 7 ∧ v < 32 then .error (.invalidSimple v) else .ok (t, ai, v, off + 1)
    else if ai = 25 then
      if avail < 2 then .error .unexpectedEof else .ok (t, ai, beAt data off 2, off + 2)
    else if ai = 26 then
      if avail < 4 then .error .unexpectedEof else .ok (t, ai, beAt data off 4, off + 4)
    else if ai = 27 then
      if avail < 8 then .error .unexpectedEof else .ok (t, ai, beAt data off 8, off + 8)
    else if ai = 31 then
      if t = 0 ∨ t = 1 ∨ t = 6 then .error (.invalidInfo ai t)
      else if t = 7 then .error .unexpectedBreak
      else .ok (t, ai, 0, off)
    else .error (.invalidInfo ai t)

/-- Whether the byte at `off` is the break code. -/
def isBreak (data : Array UInt8) (off : Nat) : Bool := data[off]? == some 0xFF

/-- The chunks of an indefinite-length string of major type `t` from `off` up to its break,
joined: each chunk must be a definite-length string of the same type. -/
def readChunks (data : Array UInt8) (t : Nat) : (fuel off : Nat) → List UInt8 →
    Except ReadError (List UInt8 × Nat)
  | 0, _, _ => .error .unexpectedEof
  | k + 1, off, acc =>
    match data[off]? with
    | none => .error .unexpectedEof
    | some b =>
      if b = 0xFF then .ok (acc, off + 1)
      else if b.toNat / 32 ≠ t then .error (.wrongChunk (b.toNat / 32) t)
      else if b.toNat % 32 = 31 then .error (.indefiniteChunk t)
      else do
        let (_, _, n, off) ← readHead data off
        if data.size - off < n then .error .unexpectedEof
        else readChunks data t k (off + n) (acc ++ (data.extract off (off + n)).toList)

/-- The items of an array (`t = 4`) or the keys and values of a map (`t = 5`), read by
`readOne`: exactly `count` of them, or up to a break when the length is indefinite. -/
def readSeq (data : Array UInt8) (t : Nat) (count : Option Nat)
    (readOne : Nat → Except ReadError (Item × Nat)) :
    (fuel i off : Nat) → List Item → Except ReadError (List Item × Nat)
  | 0, _, _, _ => .error .unexpectedEof
  | k + 1, i, off, acc =>
    match count with
    | some c =>
      if i = c then .ok (acc.reverse, off)
      else do
        let (x, off) ← readOne off
        readSeq data t count readOne k (i + 1) off (x :: acc)
    | none =>
      if data[off]?.isNone then .error .unexpectedEof
      else if isBreak data off then .ok (acc.reverse, off + 1)
      else do
        let (x, off) ← readOne off
        if t = 4 ∧ i + 1 > maxElements then .error .tooManyElements
        else if t = 5 ∧ (i + 1) % 2 = 0 ∧ (i + 1) / 2 > maxElements then .error .tooManyPairs
        else readSeq data t count readOne k (i + 1) off (x :: acc)

/-- Consecutive keys and values as pairs. -/
def pairUp (xs : List Item) : List (Item × Item) :=
  (List.range (xs.length / 2)).map fun i => (xs.getD (2 * i) default, xs.getD (2 * i + 1) default)

/-- Reads one item at `off`, `depth` levels down; `fuel` bounds the nesting, and a count
of elements is never trusted beyond the bytes left. -/
def readItem (data : Array UInt8) : (fuel depth off : Nat) → Except ReadError (Item × Nat)
  | 0, _, _ => .error .tooDeep
  | fuel + 1, depth, off => do
    let (t, ai, v, off) ← readHead data off
    match t with
    | 0 => return (.uint v, off)
    | 1 => return (.nint v, off)
    | 7 => return (.prim ai v, off)
    | 2 | 3 =>
      if ai = 31 then
        let (b, off) ← readChunks data t (data.size + 1) off []
        return (if t = 2 then .bytes b else .text b, off)
      else if v ≥ Nat.pow 2 63 then throw (.stringTooLong t v)
      else if data.size - off < v then throw .unexpectedEof
      else
        let b := (data.extract off (off + v)).toList
        return (if t = 2 then .bytes b else .text b, off + v)
    | 4 | 5 =>
      let depth := depth + 1
      if depth > maxNesting then throw .tooDeep
      let one := fun off => readItem data fuel depth off
      if ai = 31 then
        let (xs, off) ← readSeq data t none one (data.size + 2) 0 off []
        if t = 5 ∧ xs.length % 2 = 1 then throw .unexpectedBreak
        return (if t = 4 then .array xs else .map (pairUp xs), off)
      else
        if v ≥ Nat.pow 2 63 then throw (.containerTooLong t v)
        if t = 4 ∧ v > maxElements then throw .tooManyElements
        if t = 5 ∧ v > maxElements then throw .tooManyPairs
        let (xs, off) ← readSeq data t (some (if t = 4 then v else 2 * v)) one (data.size + 2) 0 off []
        return (if t = 4 then .array xs else .map (pairUp xs), off)
    | _ =>
      -- a tag: its content follows
      if data[off]?.isNone then throw .unexpectedEof
      let (x, off) ← readItem data fuel (depth + 1) off
      return (.tag v x, off)

/-- Reads a whole input as exactly one item. -/
def read (bs : List UInt8) : Except ReadError Item :=
  let data := bs.toArray
  if data.size = 0 then .error .eof
  else do
    let (x, off) ← readItem data (maxNesting + 2) 0 0
    if off ≠ data.size then throw (.extraneous (data.size - off) off)
    return x

/-! ### Canonical writing -/

/-- The shortest head of a major type with argument `n`. -/
def head (major n : Nat) : List UInt8 :=
  let b (ai : Nat) : UInt8 := UInt8.ofNat (32 * major + ai)
  let be (width : Nat) : List UInt8 :=
    (List.range width).reverse.map fun k => UInt8.ofNat (n / Nat.pow 256 k)
  if n < 24 then [b n]
  else if n < 256 then b 24 :: be 1
  else if n < 65536 then b 25 :: be 2
  else if n < 4294967296 then b 26 :: be 4
  else b 27 :: be 8

/-- An unsigned integer. -/
def writeUInt (n : Nat) : List UInt8 := head 0 n

/-- A byte string. -/
def writeBytes (b : List UInt8) : List UInt8 := head 2 b.length ++ b

/-- A text string, from its bytes. -/
def writeText (b : List UInt8) : List UInt8 := head 3 b.length ++ b

/-- An array of already written items. -/
def writeArray (xs : List (List UInt8)) : List UInt8 := head 4 xs.length ++ xs.flatten

/-- A map of already written keys and values, in the order given. -/
def writeMap (kvs : List (List UInt8 × List UInt8)) : List UInt8 :=
  head 5 kvs.length ++ kvs.flatMap fun (k, v) => k ++ v

/-- The null item. -/
def null : List UInt8 := [0xF6]

end StackLink.Cbor
