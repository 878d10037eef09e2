import StackLink.Bytes
import StackLink.Text.Quote

/-!
# Containers

A container packs a main code string and named words into one payload:

```
"V4BC" major minor 00 00 | main size (u32) | word count (u32) | main code | records
record = name length (u8) | name | code length (u32) | code
```

The word count is only read from containers of minor version 2 or later; older
ones have no records. Reading is strict about lengths: every field must lie
inside the payload, and the first one that does not is reported with the record
it belongs to. Records are read one at a time, so a reader that fails has
already handed out the records before the failing one. Writing needs minor
version 2 for any record, and names of at most 255 bytes.
-/

namespace StackLink

/-- A named word of a container. -/
structure WordDef where
  name : List UInt8
  code : List UInt8
deriving DecidableEq, Repr

/-- The bytes of one record. -/
def WordDef.record (w : WordDef) : List UInt8 :=
  UInt8.ofNat w.name.length :: w.name ++ Bytes.le32 w.code.length ++ w.code

/-- The contents of a container. -/
structure Container where
  major : UInt8 := 0
  minor : UInt8 := 2
  main : List UInt8 := []
  words : List WordDef := []
deriving DecidableEq, Repr

/-- The fixed part of a container, as read from its first sixteen bytes. -/
structure ContainerHeader where
  major : UInt8
  minor : UInt8
  codeSize : Nat
  wordCount : Nat
deriving DecidableEq, Repr

/-- Why a payload could not be read, or a container could not be written, as a container. -/
inductive ContainerError where
  /-- Under sixteen bytes, or no magic. -/
  | notContainer
  /-- The main code runs past the payload. -/
  | mainPastEnd (codeSize payloadLen : Nat)
  /-- Record `index` has no name length byte. -/
  | nameLengthPastEnd (index pos : Nat)
  /-- Record `index`'s name runs past the payload. -/
  | namePastEnd (index pos : Nat)
  /-- Record `name` has no complete code length. -/
  | codeLengthPastEnd (name : List UInt8) (pos : Nat)
  /-- Record `name`'s code runs past the payload. -/
  | codePastEnd (name : List UInt8) (codeLen pos : Nat)
  /-- A name over 255 bytes cannot be written. -/
  | nameTooLong (name : List UInt8)
  /-- Records cannot be written into a container of minor version below 2. -/
  | recordsNeedMinor2
deriving DecidableEq, Repr

namespace ContainerError

/-- Whether the error is a field running past the payload. -/
def isBounds : ContainerError → Bool
  | .mainPastEnd .. | .nameLengthPastEnd .. | .namePastEnd .. | .codeLengthPastEnd ..
  | .codePastEnd .. => true
  | _ => false

/-- The text of a container error. -/
def message : ContainerError → String
  | .notContainer => "not a v4b container"
  | .mainPastEnd c n => s!"{past}: main code needs {c} bytes at offset 16, payload is {n}"
  | .nameLengthPastEnd i p => s!"{past}: record {i} name length at offset {p}"
  | .namePastEnd i p => s!"{past}: record {i} name at offset {p}"
  | .codeLengthPastEnd name p => past ++ ": record " ++ Quote.bytes name ++ s!" code length at offset {p}"
  | .codePastEnd name c p =>
    past ++ ": record " ++ Quote.bytes name ++ s!" needs {c} code bytes at offset {p}"
  | .nameTooLong name => "word name exceeds 255 bytes: " ++ Quote.bytes name
  | .recordsNeedMinor2 => "word records require container minor version 2 or later"
where
  past := "container field reads past end of payload"

end ContainerError

namespace Container

/-- The four bytes every container starts with: `V4BC`. -/
def magic : List UInt8 := [0x56, 0x34, 0x42, 0x43]

/-- Bytes before the main code. -/
def headerSize : Nat := 16

/-- The longest name a record can carry. -/
def maxNameLen : Nat := 255

/-- Whether a payload starts like a container: sixteen bytes at least, and the magic. -/
def isContainer (payload : List UInt8) : Bool :=
  payload.length ≥ headerSize && payload.take 4 == magic

/-- Reads the header, and checks that the main code lies inside the payload. -/
def readHeader (payload : List UInt8) : Except ContainerError ContainerHeader :=
  if !isContainer payload then .error .notContainer
  else
    let minor := payload.getD 5 0
    let codeSize := (Bytes.readLE32 payload 8).getD 0
    let h : ContainerHeader :=
      { major := payload.getD 4 0, minor,
        codeSize, wordCount := if minor ≥ 2 then (Bytes.readLE32 payload 12).getD 0 else 0 }
    if headerSize + codeSize > payload.length then .error (.mainPastEnd codeSize payload.length)
    else .ok h

/-- Reads record number `index` at `pos`: the word and the position after it. -/
def recordAt (payload : List UInt8) (index pos : Nat) : Except ContainerError (WordDef × Nat) :=
  match payload[pos]? with
  | none => .error (.nameLengthPastEnd index pos)
  | some len =>
    let p := pos + 1
    let n := len.toNat
    if p + n > payload.length then .error (.namePastEnd index p)
    else
      let name := (payload.drop p).take n
      let p := p + n
      match Bytes.readLE32 payload p with
      | none => .error (.codeLengthPastEnd name p)
      | some c =>
        let p := p + 4
        if p + c > payload.length then .error (.codePastEnd name c p)
        else .ok (⟨name, (payload.drop p).take c⟩, p + c)

/-- Reads up to `remaining` records from `pos` on, numbering them from `index`. Each record
is returned with the count still to read after it; reading stops at the first failure,
which is returned beside the records before it. -/
def recordsFrom (payload : List UInt8) (index pos : Nat) :
    (remaining : Nat) → List (WordDef × Nat) × Option ContainerError
  | 0 => ([], none)
  | k + 1 =>
    match recordAt payload index pos with
    | .error e => ([], some e)
    | .ok (w, p) =>
      let (ws, e) := recordsFrom payload (index + 1) p k
      ((w, k) :: ws, e)

end Container

/-- The main code of a payload whose header has been read. -/
def ContainerHeader.main (h : ContainerHeader) (payload : List UInt8) : List UInt8 :=
  (payload.drop Container.headerSize).take h.codeSize

/-- The records of a payload whose header has been read. -/
def ContainerHeader.records (h : ContainerHeader) (payload : List UInt8) :
    List (WordDef × Nat) × Option ContainerError :=
  Container.recordsFrom payload 0 (Container.headerSize + h.codeSize) h.wordCount

namespace Container

/-- Reads a whole container; any failing record fails it. -/
def parse (data : List UInt8) : Except ContainerError Container := do
  let h ← readHeader data
  match h.records data with
  | (_, some e) => .error e
  | (ws, none) => .ok { major := h.major, minor := h.minor, main := h.main data, words := ws.map (·.1) }

/-- The number of bytes `marshal` writes. -/
def size (c : Container) : Nat :=
  headerSize + c.main.length + (c.words.map fun w => 1 + w.name.length + 4 + w.code.length).foldl (· + ·) 0

/-- Writes a container. -/
def marshal (c : Container) : Except ContainerError (List UInt8) :=
  if !c.words.isEmpty ∧ c.minor < 2 then .error .recordsNeedMinor2
  else match c.words.find? (·.name.length > maxNameLen) with
    | some w => .error (.nameTooLong w.name)
    | none =>
      .ok (magic ++ [c.major, c.minor, 0, 0] ++ Bytes.le32 c.main.length ++
        Bytes.le32 c.words.length ++ c.main ++ c.words.flatMap WordDef.record)

/-- Adds a word at the end and returns its position. -/
def addWord (c : Container) (name code : List UInt8) : Container × Nat :=
  ({ c with words := c.words ++ [⟨name, code⟩] }, c.words.length)

end Container

end StackLink
