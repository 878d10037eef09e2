import StackLink.Format.Report
import StackLink.Code.Listing
import StackLink.Host.Symbols
import StackLink.Text.Instant
/-!
# Reports of the host's results

How the results that the host shows its user look as tables and as documents:
decoded code as listings, the machine's two stacks, one word, and the words an
upload registered, a memory dump and the recorded symbols. Document fields follow the order given here; an instruction
leaves out what it lacks (operands, value, target, effect, and `truncated` when
it is complete).
-/

namespace StackLink

namespace Instruction

/-- The document of a decoded instruction. -/
def doc (i : Instruction) : Doc :=
  .record <|
    [("offset", .int i.offset), ("op", .text i.name)] ++
    (if i.operands.isEmpty then [] else [("operands", .bytes i.operands)]) ++
    (match i.value? with | some v => [("value", .int v.toInt)] | none => []) ++
    (match i.target? with | some t => [("target", .int t)] | none => []) ++
    (let e := Opcode.effect i.opcode; if e.isEmpty then [] else [("effect", .text e)]) ++
    (if i.truncated then [("truncated", .bool true)] else [])

end Instruction

/-- A list given as present or not made at all. -/
def Doc.list? : Option (List Doc) → Doc
  | some ds => .seq ds
  | none => .absent

/-- A block of code to be listed: its place among the words (`-1` for none), its name and
its bytes. -/
structure Listing where
  index : Int
  name : List UInt8
  code : List UInt8

/-- The document of a listing; code with no instructions has no list of them. -/
def Listing.doc (l : Listing) : Doc :=
  let ins := Code.decode l.code
  .record [("index", .int l.index), ("name", .str l.name),
    ("instructions", if ins.isEmpty then .absent else .seq (ins.map Instruction.doc))]

namespace Report

/-- A list of listings. -/
def listings (ls : List Listing) : Report :=
  ⟨.rows ["INDEX", "NAME", "INSTRUCTIONS"] (ls.map fun l =>
      [toString l.index, Utf8.lossy l.name, toString (Code.decode l.code).length]),
    .seq (ls.map Listing.doc)⟩

/-- The data and return stacks; a stack not given prints as an empty list in a table. -/
def stackPair (data ret : Option (List Int32)) : Report :=
  let text (s : Option (List Int32)) := bracketed ((s.getD []).map Int32.toInt)
  let doc (s : Option (List Int32)) := Doc.list? (s.map fun xs => xs.map fun x => .int x.toInt)
  ⟨.fields [("Data", text data), ("Return", text ret)],
    .record [("data", doc data), ("return", doc ret)]⟩

/-- One word of a machine: its index, name and code. -/
def word (index : UInt16) (name code : List UInt8) : Report :=
  ⟨.fields [("Index", toString index.toNat), ("Name", Utf8.lossy name), ("Code", Hex.spaced code)],
    .record [("index", .int index.toNat), ("name", .str name), ("code", .bytes code)]⟩

/-- The words of an upload: index, name and size of each. -/
def uploads (rows : List (Int × List UInt8 × Int)) : Report :=
  ofRows ["index", "name", "size"] (rows.map fun (i, n, s) =>
    ([toString i, Utf8.lossy n, toString s],
      .record [("index", .int i), ("name", .str n), ("size", .int s)]))

/-- A word and its decoded code; code with no instructions has no list of them. As a table
it shows the word's index, name and size. -/
def wordView (index : UInt16) (name code : List UInt8) : Report :=
  let ins := Code.decode code
  ⟨.fields [("Index", toString index.toNat), ("Name", Utf8.lossy name), ("Size", toString code.length)],
    .record [("index", .int index.toNat), ("name", .str name), ("size", .int code.length),
      ("instructions", if ins.isEmpty then .absent else .seq (ins.map Instruction.doc))]⟩

/-- How a byte shows in the text column of a dump: printable ASCII as itself, all else as a dot. -/
def dumpChar (b : UInt8) : Char := if 0x20 ≤ b ∧ b < 0x7F then Char.ofNat b.toNat else '.'

/-- The lines of a memory dump starting at an address: sixteen bytes a line, each line
with its address in eight upper-case hex digits, its bytes and their text. -/
def dumpLines (addr : UInt32) (data : List UInt8) : List (String × List UInt8 × String) :=
  (chunksOf16 data).zipIdx.map fun (chunk, i) =>
    ("0x" ++ Hex.upper 8 (addr + UInt32.ofNat (16 * i)).toNat, chunk, String.ofList (chunk.map dumpChar))
where
  /-- The bytes in pieces of sixteen. -/
  chunksOf16 (bs : List UInt8) : List (List UInt8) :=
    (List.range ((bs.length + 15) / 16)).map fun i => (bs.drop (16 * i)).take 16

/-- A memory dump; no bytes at all make no lines. -/
def memory (addr : UInt32) (data : List UInt8) : Report :=
  let ls := dumpLines addr data
  ⟨.rows ["ADDRESS", "BYTES", "ASCII"] (ls.map fun (a, b, t) => [a, Hex.spaced b, t]),
    if ls.isEmpty then .absent
    else .seq (ls.map fun (a, b, t) => .record [("address", .text a), ("bytes", .bytes b), ("ascii", .text t)])⟩

/-- Recorded symbols, with the instant each was recorded; none at all make no list. -/
def symbols (syms : List Symbol) : Report :=
  ⟨.rows ["DEVICE", "INDEX", "NAME", "SIZE", "RECORDED"] (syms.map fun s =>
      [s.device, toString s.index.toNat, Utf8.lossy s.name, toString s.size, Instant.text s.recorded]),
    if syms.isEmpty then .absent
    else .seq (syms.map fun s => .record [("device", .text s.device), ("index", .int s.index.toNat),
      ("name", .str s.name), ("size", .int s.size), ("recorded", .stamp (Instant.document s.recorded))])⟩

end Report

end StackLink
