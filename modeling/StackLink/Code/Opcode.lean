import StackLink.Text.Hex

/-!
# The instruction set

Thirty-eight opcodes, each one byte followed by a fixed number of operand
bytes. The table gives every opcode its name, how many values it takes from and
leaves on the data stack, and its operand length; `CALL` and `SYS` take as many
values as the callee or the system call does, recorded as no fixed count.
Bytes outside the table are opcodes too, for listings: they print as
`UNKNOWN(0xNN)`, take no operands and have no stack effect.

| bytes | opcodes |
|---|---|
| `00`–`05` | `LIT DUP DROP SWAP OVER ROT` |
| `10`–`15` | `ADD SUB MUL DIV MOD NEG` |
| `18`–`1B` | `AND OR XOR INVERT` |
| `20`–`25` | `EQ NE LT LE GT GE` |
| `30`–`32` | `TOR FROMR RFETCH` |
| `40`–`42` | `JMP JZ JNZ` (a signed 16-bit displacement) |
| `48`–`4B` | `LOAD STORE LOAD8 STORE8` |
| `50`–`51` | `CALL RET` (a 16-bit word index) |
| `60` | `SYS` (a system call number and 15 argument bytes) |
| `76`–`78` | `LIT_U8 LIT_I8 LIT_I16` |
-/

namespace StackLink

/-- The known opcodes. -/
inductive Op where
  | lit | dup | drop | swap | over | rot
  | add | sub | mul | div | mod | neg
  | and | or | xor | invert
  | eq | ne | lt | le | gt | ge
  | toR | fromR | rFetch
  | jmp | jz | jnz
  | load | store | load8 | store8
  | call | ret
  | sys
  | litU8 | litI8 | litI16
deriving DecidableEq, Repr

/-- What the table says of an opcode. -/
structure OpInfo where
  name : String
  /-- Values taken from the data stack; `none` when the callee decides. -/
  pop : Option Nat
  /-- Values left on the data stack. -/
  push : Nat
  /-- Operand bytes after the opcode byte. -/
  operandLen : Nat
deriving DecidableEq, Repr

/-- Operand bytes of a system call: the call number and fifteen argument bytes. -/
def sysOperandLen : Nat := 16

namespace Op

/-- Every known opcode, in the order of its byte. -/
def all : List Op :=
  [.lit, .dup, .drop, .swap, .over, .rot, .add, .sub, .mul, .div, .mod, .neg,
   .and, .or, .xor, .invert, .eq, .ne, .lt, .le, .gt, .ge, .toR, .fromR, .rFetch,
   .jmp, .jz, .jnz, .load, .store, .load8, .store8, .call, .ret, .sys,
   .litU8, .litI8, .litI16]

/-- The byte an opcode is written as. -/
def byte : Op → UInt8
  | .lit => 0x00 | .dup => 0x01 | .drop => 0x02 | .swap => 0x03 | .over => 0x04
  | .rot => 0x05 | .add => 0x10 | .sub => 0x11 | .mul => 0x12 | .div => 0x13
  | .mod => 0x14 | .neg => 0x15 | .and => 0x18 | .or => 0x19 | .xor => 0x1A
  | .invert => 0x1B | .eq => 0x20 | .ne => 0x21 | .lt => 0x22 | .le => 0x23
  | .gt => 0x24 | .ge => 0x25 | .toR => 0x30 | .fromR => 0x31 | .rFetch => 0x32
  | .jmp => 0x40 | .jz => 0x41 | .jnz => 0x42 | .load => 0x48 | .store => 0x49
  | .load8 => 0x4A | .store8 => 0x4B | .call => 0x50 | .ret => 0x51 | .sys => 0x60
  | .litU8 => 0x76 | .litI8 => 0x77 | .litI16 => 0x78

/-- The opcode a byte stands for, if it is in the table. -/
def ofByte? (b : UInt8) : Option Op := all.find? (·.byte = b)

/-- The table entry of a known opcode. -/
def info : Op → OpInfo
  | .lit => ⟨"LIT", some 0, 1, 4⟩
  | .dup => ⟨"DUP", some 1, 2, 0⟩
  | .drop => ⟨"DROP", some 1, 0, 0⟩
  | .swap => ⟨"SWAP", some 2, 2, 0⟩
  | .over => ⟨"OVER", some 2, 3, 0⟩
  | .rot => ⟨"ROT", some 3, 3, 0⟩
  | .add => ⟨"ADD", some 2, 1, 0⟩
  | .sub => ⟨"SUB", some 2, 1, 0⟩
  | .mul => ⟨"MUL", some 2, 1, 0⟩
  | .div => ⟨"DIV", some 2, 1, 0⟩
  | .mod => ⟨"MOD", some 2, 1, 0⟩
  | .neg => ⟨"NEG", some 1, 1, 0⟩
  | .and => ⟨"AND", some 2, 1, 0⟩
  | .or => ⟨"OR", some 2, 1, 0⟩
  | .xor => ⟨"XOR", some 2, 1, 0⟩
  | .invert => ⟨"INVERT", some 1, 1, 0⟩
  | .eq => ⟨"EQ", some 2, 1, 0⟩
  | .ne => ⟨"NE", some 2, 1, 0⟩
  | .lt => ⟨"LT", some 2, 1, 0⟩
  | .le => ⟨"LE", some 2, 1, 0⟩
  | .gt => ⟨"GT", some 2, 1, 0⟩
  | .ge => ⟨"GE", some 2, 1, 0⟩
  | .toR => ⟨"TOR", some 1, 0, 0⟩
  | .fromR => ⟨"FROMR", some 0, 1, 0⟩
  | .rFetch => ⟨"RFETCH", some 0, 1, 0⟩
  | .jmp => ⟨"JMP", some 0, 0, 2⟩
  | .jz => ⟨"JZ", some 1, 0, 2⟩
  | .jnz => ⟨"JNZ", some 1, 0, 2⟩
  | .load => ⟨"LOAD", some 1, 1, 0⟩
  | .store => ⟨"STORE", some 2, 0, 0⟩
  | .load8 => ⟨"LOAD8", some 1, 1, 0⟩
  | .store8 => ⟨"STORE8", some 2, 0, 0⟩
  | .call => ⟨"CALL", none, 0, 2⟩
  | .ret => ⟨"RET", some 0, 0, 0⟩
  | .sys => ⟨"SYS", none, 0, sysOperandLen⟩
  | .litU8 => ⟨"LIT_U8", some 0, 1, 1⟩
  | .litI8 => ⟨"LIT_I8", some 0, 1, 1⟩
  | .litI16 => ⟨"LIT_I16", some 0, 1, 2⟩

end Op

namespace Opcode

/-- The table entry of any byte: unknown bytes are named `UNKNOWN(0xNN)` and have no
operands and no stack effect. -/
def info (b : UInt8) : OpInfo :=
  match Op.ofByte? b with
  | some op => op.info
  | none => ⟨"UNKNOWN(0x" ++ Hex.upper 2 b.toNat ++ ")", some 0, 0, 0⟩

/-- Whether the byte is in the table. -/
def known (b : UInt8) : Bool := (Op.ofByte? b).isSome

/-- The operand length of any byte. -/
def operandLen (b : UInt8) : Nat := (info b).operandLen

/-- The whole instruction's length: the opcode byte and its operands. -/
def instructionLen (b : UInt8) : Nat := 1 + operandLen b

/-- `JMP`, `JZ` and `JNZ`. -/
def isJump (b : UInt8) : Bool := 0x40 ≤ b && b ≤ 0x42

/-- The four literal pushes. -/
def isLiteral (b : UInt8) : Bool := b == 0x00 || (0x76 ≤ b && b ≤ 0x78)

/-- A stack effect in the usual `( in -- out )` notation, `?` for a callee-decided count. -/
def effectText (i : OpInfo) : String :=
  let pop := match i.pop with | some n => toString n | none => "?"
  s!"( {pop} -- {i.push} )"

/-- The stack effect of a known opcode, and the empty text for an unknown one. -/
def effect (b : UInt8) : String := if known b then effectText (info b) else ""

end Opcode

end StackLink
