import StackLink.Code.Instruction

/-!
# Listings

A listing walks the code by offsets, reading one instruction at a time
(`disassembleAt`) and stepping over it by its length, and prints one line per
instruction: the offset in four upper-case hex digits, two blanks and the
instruction. Literals show their value,
jumps their signed displacement and, after an arrow, the offset they land on,
calls their word index and, when the caller knows it, the word's name, and
system calls their number and argument bytes. A truncated instruction says how
many of its operand bytes are present and ends the listing.

A whole listing opens with a comment header: the word's name if it has one, the
code size, and the number of calls when there are any.
-/

namespace StackLink

/-- An integer in upper-case hexadecimal padded with zeros to `width` characters, the
minus sign of a negative one counting towards the width. -/
def Hex.upperSigned (width : Nat) (i : Int) : String :=
  if i < 0 then "-" ++ Hex.upper (width - 1) i.natAbs else Hex.upper width i.toNat

namespace Code

/-- The text of the instruction at `offset` and its length, zero when the instruction is
truncated or `offset` is past the end. `names` gives the name of a word index, empty when
unknown. -/
def disassembleAt (code : List UInt8) (offset : Nat) (names : UInt16 → String) :
    String × Nat :=
  if h : offset < code.length then
    let op := code[offset]
    let info := Opcode.info op
    let len := 1 + info.operandLen
    if code.length < offset + len then
      (s!"{info.name} <truncated: {code.length - offset - 1} of {info.operandLen} operand bytes>",
        0)
    else
      let operand := (code.drop (offset + 1)).take info.operandLen
      if Opcode.isLiteral op then (s!"{info.name} {(literalValue op operand).toInt}", len)
      else if Opcode.isJump op then
        let delta := Bytes.signed 16 (Bytes.leValue operand)
        (info.name ++ " " ++ Decimal.signed delta ++ " (-> " ++
          Hex.upperSigned 4 ((offset + len : Nat) + delta) ++ ")", len)
      else if op = Op.call.byte then
        let idx := UInt16.ofNat (Bytes.leValue operand)
        let n := names idx
        (if n.isEmpty then s!"CALL {idx.toNat}" else s!"CALL {idx.toNat} ; {n}", len)
      else if op = Op.sys.byte then
        (s!"SYS {(operand.headD 0).toNat} [" ++ Hex.spaced operand.tail ++ "]", len)
      else (info.name, len)
  else ("<end of code>", 0)

/-- The listing lines from `offset` on, each the offset and the instruction's text; an
instruction of length zero ends the listing. -/
def linesFrom (code : List UInt8) (names : UInt16 → String) (offset : Nat) : List String :=
  if offset < code.length then
    let r := disassembleAt code offset names
    let line := Hex.upper 4 offset ++ "  " ++ r.1
    if r.2 = 0 then [line] else line :: linesFrom code names (offset + r.2)
  else []
termination_by code.length - offset
decreasing_by exact Nat.sub_lt_sub_left ‹_› (Nat.lt_add_of_pos_right (Nat.pos_of_ne_zero ‹_›))

/-- The listing lines of a code string. -/
def listingLines (code : List UInt8) (names : UInt16 → String := fun _ => "") : List String :=
  linesFrom code names 0

/-- A whole listing: header, blank line, one line per instruction. -/
def listing (name : String) (code : List UInt8) (names : UInt16 → String := fun _ => "") :
    String :=
  let calls := (callTargets code).length
  (if name.isEmpty then "" else s!"; === {name} ===\n") ++
  s!"; V4 bytecode, {code.length} bytes\n" ++
  (if calls > 0 then s!"; Calls: {calls}\n" else "") ++ "\n" ++
  String.join ((listingLines code names).map (· ++ "\n"))

/-- The instruction at any offset, as text and length (0 when it ends the listing): past the
end there is nothing, and a negative offset is outside the code. -/
def instructionAt (code : List UInt8) (offset : Int) : Except RangeFault (String × Nat) :=
  if offset < 0 then .error (.index offset code.length)
  else .ok (disassembleAt code offset.toNat fun _ => "")

end Code

end StackLink
