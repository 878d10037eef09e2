import StackLink.Code.Container
import StackLink.Format.Cbor
import StackLink.Digest.Sha256

/-!
# Modules

A module is the host's file form of a container: a name, the main code, the named
words and a SHA-256 digest of the container the module stands for (major 0,
minor 2). It is written as a canonical CBOR map with integer keys:

| key | field | when written |
|---|---|---|
| 1 | name (text) | always |
| 2 | main code (bytes) | when not empty |
| 3 | words (array of maps `{1: name, 2: code}`) | when there are any |
| 4 | digest (32 bytes) | always |

A word's code may be absent — a module made from a parsed container has no code
for a word whose code is empty — and is then written as null.

The host writes and reads module files through a `ModuleCodec`, the CBOR library
it is built with; `ModuleCodec.cbor` is the one defined here.

Reading is lenient where the decoder modules are read with is lenient: unknown
keys are skipped, a key's first occurrence wins, a null leaves a field as it
was, a text key names a field by its number, and an array of small integers is
as good as a byte string. A value of the wrong kind is a type error naming the
module field it sits in, and the first error in document order is the one
reported. An all-zero digest means "not sealed" and is never checked; any other
digest must match the contents.
-/

namespace StackLink

/-- A named word of a module; `none` for a code that is absent. -/
structure ModuleWord where
  name : List UInt8
  code : Option (List UInt8)
deriving DecidableEq, Repr

/-- A module. -/
structure Module where
  name : List UInt8 := []
  main : List UInt8 := []
  words : List ModuleWord := []
  /-- Thirty-two bytes; all zero when the module is not sealed. -/
  digest : List UInt8 := List.replicate 32 0
deriving DecidableEq, Repr

/-- Why a module's digest check failed. -/
inductive DigestError where
  /-- The contents cannot be written as a container. -/
  | container (e : ContainerError)
  /-- The digest does not match the contents. -/
  | mismatch (declared computed : List UInt8)
deriving DecidableEq, Repr

/-- The text of a failed digest check, showing the first eight bytes of each digest. -/
def DigestError.message : DigestError → String
  | .container e => e.message
  | .mismatch d c =>
    "module digest does not match contents: declared " ++ Hex.ofBytes (d.take 8) ++
      ", computed " ++ Hex.ofBytes (c.take 8)

/-- Why a module could not be read or checked. -/
inductive ModuleError where
  | read (e : Cbor.ReadError)
  /-- An item of kind `found` where a value of type `want` was expected, inside module
  field `field` if any, with an explanation if any. -/
  | mismatch (found want : String) (field : Option String) (note : Option String)
  | invalidUtf8
  /-- A tag whose content has the wrong kind. -/
  | badTag (tag : Nat) (found : String)
  /-- The module named `name` read well but fails its digest check. -/
  | check (name : List UInt8) (e : DigestError)
deriving DecidableEq, Repr

/-- The text of a module error. -/
def ModuleError.message : ModuleError → String
  | .read e => "bytecode: unmarshal module: " ++ e.message
  | .mismatch found want field note =>
    let place := match field with
      | some f => "Go struct field " ++ f
      | none => "Go value"
    "bytecode: unmarshal module: cbor: cannot unmarshal " ++ found ++ " into " ++ place ++
      " of type " ++ want ++ (match note with | some n => " (" ++ n ++ ")" | none => "")
  | .invalidUtf8 => "bytecode: unmarshal module: cbor: invalid UTF-8 string"
  | .badTag t found =>
    let want := match t with
      | 0 => "text string" | 1 => "integer or floating-point number" | _ => "byte string"
    let num := if t ≥ 2 then "2 or 3" else toString t
    s!"bytecode: unmarshal module: cbor: tag number {num} must be followed by " ++ want ++ ", got " ++ found
  | .check name e => "bytecode: module " ++ Quote.bytes name ++ ": " ++ e.message

namespace Module

/-- The digest of a module that is not sealed. -/
def zeroDigest : List UInt8 := List.replicate 32 0

/-- The container a module stands for. -/
def toContainer (m : Module) : Container :=
  { major := 0, minor := 2, main := m.main,
    words := m.words.map fun w => ⟨w.name, w.code.getD []⟩ }

/-- The module of a parsed container, under a name; a word with empty code has none. -/
def ofContainer (name : List UInt8) (c : Container) : Module :=
  { name, main := c.main,
    words := c.words.map fun w => ⟨w.name, if w.code.isEmpty then none else some w.code⟩ }

/-- The digest of the container the module stands for. -/
def computeDigest (m : Module) : Except ContainerError (List UInt8) :=
  m.toContainer.marshal.map Sha256.hash

/-- The module with its digest set to its contents'. -/
def sealDigest (m : Module) : Except ContainerError Module :=
  m.computeDigest.map fun d => { m with digest := d }

/-- Checks the digest: an all-zero one passes, any other must be the contents'. -/
def verify (m : Module) : Except DigestError Unit :=
  if m.digest = zeroDigest then .ok ()
  else match m.computeDigest with
    | .error e => .error (.container e)
    | .ok d => if d = m.digest then .ok () else .error (.mismatch m.digest d)

/-! ### Writing -/

/-- The canonical CBOR of a word. -/
def ModuleWord.encode (w : ModuleWord) : List UInt8 :=
  Cbor.writeMap [(Cbor.writeUInt 1, Cbor.writeText w.name),
    (Cbor.writeUInt 2, match w.code with | some c => Cbor.writeBytes c | none => Cbor.null)]

/-- The canonical CBOR of a module. -/
def encode (m : Module) : List UInt8 :=
  Cbor.writeMap ([(Cbor.writeUInt 1, Cbor.writeText m.name)] ++
    (if m.main.isEmpty then [] else [(Cbor.writeUInt 2, Cbor.writeBytes m.main)]) ++
    (if m.words.isEmpty then [] else
      [(Cbor.writeUInt 3, Cbor.writeArray (m.words.map ModuleWord.encode))]) ++
    [(Cbor.writeUInt 4, Cbor.writeBytes m.digest)])

/-! ### Reading -/

open Cbor in
/-- The kind of an item, as the decoder's messages name it. -/
def kind (x : Item) : String := majorName x.major

/-- Whether an item is null or undefined, which leave a value as it was. -/
def isNil : Cbor.Item → Bool
  | .prim 22 _ | .prim 23 _ => true
  | _ => false

/-- Checks the content kind of the tags the decoder knows (0–3), and takes off the
self-describing tag 55799. -/
def untag (x : Cbor.Item) : Except ModuleError Cbor.Item :=
  match x with
  | .tag 55799 y => .ok y
  | .tag t y =>
    let ok := match t, y with
      | 0, .text _ => true
      | 1, .uint _ | 1, .nint _ => true
      | 1, .prim ai _ => ai = 25 ∨ ai = 26 ∨ ai = 27
      | 2, .bytes _ | 3, .bytes _ => true
      | 0, _ | 1, _ | 2, _ | 3, _ => false
      | _, _ => true
    if ok then .ok x else .error (.badTag t (kind y))
  | _ => .ok x

/-- The content under any tags other than bignums. -/
def stripTags : Nat → Cbor.Item → Except ModuleError Cbor.Item
  | 0, x => .ok x
  | n + 1, x => do
    match ← untag x with
    | .tag t y => if t = 2 ∨ t = 3 then return .tag t y else stripTags n y
    | y => return y

/-- A type error for `x` where a `want` was expected. -/
def mismatch (x : Cbor.Item) (want : String) (note : Option String := none) : ModuleError :=
  .mismatch (kind x) want none note

/-- A text value: `none` leaves the field as it was. -/
def readText (x : Cbor.Item) : Except ModuleError (Option (List UInt8)) := do
  match ← stripTags 8 x with
  | .text b => if Utf8.isValid b then return some b else throw .invalidUtf8
  | y => if isNil y then return none else throw (mismatch y "string")

/-- One byte of an array read as bytes: `none` leaves it as it was. -/
def readByte (x : Cbor.Item) : Except ModuleError (Option UInt8) := do
  match ← stripTags 8 x with
  | .uint n =>
    if n < 256 then return some (UInt8.ofNat n)
    else throw (mismatch (.uint n) "uint8" (some s!"{n} overflows uint8"))
  | .text b =>
    if Utf8.isValid b then throw (mismatch (.text b) "uint8") else throw .invalidUtf8
  | y =>
    if isNil y then return none else throw (mismatch y "uint8")

/-- The elements of an array read as bytes, in order. -/
def readByteList : List Cbor.Item → Except ModuleError (List UInt8)
  | [] => .ok []
  | x :: xs => do
    let b ← readByte x
    let bs ← readByteList xs
    return b.getD 0 :: bs

/-- A byte-string value: `none` for null, which empties a slice. -/
def readBytes (x : Cbor.Item) : Except ModuleError (Option (List UInt8)) := do
  match ← stripTags 8 x with
  | .bytes b | .tag _ (.bytes b) => return some b
  | .array xs => return some (← readByteList xs)
  | .text b => if Utf8.isValid b then throw (mismatch (.text b) "[]uint8") else throw .invalidUtf8
  | y => if isNil y then return none else throw (mismatch y "[]uint8")

/-- The 32-byte digest value: a byte string or an array, cut or zero-filled to 32 bytes;
`none` leaves it as it was. -/
def readDigest (x : Cbor.Item) : Except ModuleError (Option (List UInt8)) := do
  let fit (b : List UInt8) : List UInt8 := b.take 32 ++ List.replicate (32 - b.length) 0
  match ← stripTags 8 x with
  | .bytes b | .tag _ (.bytes b) => return some (fit b)
  | .array xs => return some (fit (← readByteList (xs.take 32)))
  | .text b => if Utf8.isValid b then throw (mismatch (.text b) "[32]uint8") else throw .invalidUtf8
  | y => if isNil y then return none else throw (mismatch y "[32]uint8")

/-- Which field of a struct a map key names: a number, or a text holding one. -/
def keyField (k : Cbor.Item) : Except ModuleError (Option Nat) :=
  match k with
  | .uint n => .ok (if n < Nat.pow 2 63 then some n else none)
  | .nint n =>
    if n ≥ Nat.pow 2 63 then .error (.mismatch "negative integer" "int64" none
      (some s!"-1-{n} overflows Go's int64"))
    else .ok none
  | .text b =>
    if !Utf8.isValid b then .error .invalidUtf8
    else .ok ((String.ofList (Utf8.lossy b).toList).toNat?)
  | y => .error (.mismatch (kind y) "string" none
      (some ("map key is of type " ++ kind y ++ " and cannot be used to match struct field name")))

/-- Walks a map into a struct with the given field numbers: the first occurrence of each
field is read by `set`, later ones and unknown keys are skipped. A type error inside a
field is reported as being in that field of struct type `struct`. -/
def readFields {σ : Type} (struct : String) (fields : List Nat)
    (set : Nat → Cbor.Item → σ → Except ModuleError σ) :
    List (Cbor.Item × Cbor.Item) → List Nat → σ → Except ModuleError σ
  | [], _, s => .ok s
  | (k, v) :: rest, seen, s => do
    match ← keyField k with
    | some f =>
      if f ∈ fields ∧ f ∉ seen then
        let s ← match set f v s with
          | .ok s => pure s
          | .error (.mismatch found want _ note) =>
            throw (.mismatch found want (some s!"{struct}.{f}") note)
          | .error e => throw e
        readFields struct fields set rest (f :: seen) s
      else readFields struct fields set rest seen s
    | none => readFields struct fields set rest seen s

/-- A word from a map; null is the empty word. -/
def readWord (x : Cbor.Item) : Except ModuleError ModuleWord := do
  let empty : ModuleWord := ⟨[], none⟩
  match ← stripTags 8 x with
  | .map kvs =>
    readFields "bytecode.ModuleWord" [1, 2] (fun f v w =>
      if f = 1 then return { w with name := (← readText v).getD w.name }
      else return { w with code := ← readBytes v }) kvs [] empty
  | .array xs => throw (mismatch (.array xs) "bytecode.ModuleWord"
      (some "cannot decode CBOR array to struct without toarray option"))
  | .text b => if Utf8.isValid b then throw (mismatch (.text b) "bytecode.ModuleWord") else throw .invalidUtf8
  | y => if isNil y then return empty else throw (mismatch y "bytecode.ModuleWord")

/-- The words of an array, in order. -/
def readWordList : List Cbor.Item → Except ModuleError (List ModuleWord)
  | [] => .ok []
  | x :: xs => do
    let w ← readWord x
    let ws ← readWordList xs
    return w :: ws

/-- The words value: an array of word maps; null empties it. -/
def readWords (x : Cbor.Item) : Except ModuleError (List ModuleWord) := do
  match ← stripTags 8 x with
  | .array xs => readWordList xs
  | .text b => if Utf8.isValid b then throw (mismatch (.text b) "[]bytecode.ModuleWord") else throw .invalidUtf8
  | y => if isNil y then return [] else throw (mismatch y "[]bytecode.ModuleWord")

/-- Sets one module field from its value. -/
def setField (f : Nat) (v : Cbor.Item) (m : Module) : Except ModuleError Module :=
  match f with
  | 1 => return { m with name := (← readText v).getD m.name }
  | 2 => return { m with main := (← readBytes v).getD [] }
  | 3 => return { m with words := ← readWords v }
  | _ => return { m with digest := (← readDigest v).getD m.digest }

/-- Reads a module's CBOR, without checking the digest. -/
def decodeUnchecked (bs : List UInt8) : Except ModuleError Module := do
  let x ← (Cbor.read bs).mapError .read
  match ← stripTags 8 x with
  | .map kvs => readFields "bytecode.Module" [1, 2, 3, 4] setField kvs [] {}
  | .array xs => throw (mismatch (.array xs) "bytecode.Module"
      (some "cannot decode CBOR array to struct without toarray option"))
  | .text b => if Utf8.isValid b then throw (mismatch (.text b) "bytecode.Module") else throw .invalidUtf8
  | y => if isNil y then return {} else throw (mismatch y "bytecode.Module")

end Module

/-- The CBOR library module files are written and read with: `marshal` writes a module, and
`unmarshal` reads a module's fields back from bytes without checking its digest. -/
structure ModuleCodec where
  marshal : Module → List UInt8
  unmarshal : List UInt8 → Except ModuleError Module

namespace ModuleCodec

/-- The codec this library runs with: the canonical CBOR of `Module.encode`, read back by
`Module.decodeUnchecked`. -/
def cbor : ModuleCodec := ⟨Module.encode, Module.decodeUnchecked⟩

/-- Reads a module file and checks its digest. -/
def unmarshalModule (codec : ModuleCodec) (bs : List UInt8) : Except ModuleError Module := do
  let m ← codec.unmarshal bs
  m.verify.mapError (.check m.name)
  return m

end ModuleCodec

end StackLink
