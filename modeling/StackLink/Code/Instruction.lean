import StackLink.Bytes
import StackLink.Code.Opcode

/-!
# Instructions of a code string

Code is a byte string read from the front: an opcode byte, then as many operand
bytes as the table gives it, then the next instruction. A last instruction whose
operands run past the end is *truncated* and ends the walk. `decode` is this
walk. The call list and call relocation make walks of their own, by offsets
into the code (`callTargetsFrom`, `relocateFrom`), as listings do, and the
machine reads one instruction where its program counter stands (`fetch`).

What an instruction means beyond its bytes: a literal's value (`LIT` a 32-bit
word, `LIT_U8` an unsigned byte, `LIT_I8` and `LIT_I16` sign-extended), a jump's
target (the end of the jump plus its signed 16-bit displacement) and a call's
16-bit word index. Relocating by `k` adds `k`, modulo `2^16`, to the index of
every complete call and changes no other byte.
-/

namespace StackLink

/-- One instruction of a code string, at its offset. -/
structure Instruction where
  offset : Nat
  opcode : UInt8
  /-- The operand bytes; fewer than the table asks for when truncated. -/
  operands : List UInt8
  truncated : Bool := false
deriving DecidableEq, Repr

namespace Code

/-- The instructions of `code`, the first at `offset`. -/
def decodeFrom (offset : Nat) : List UInt8 → List Instruction
  | [] => []
  | b :: rest =>
    let n := Opcode.operandLen b
    if rest.length < n then [⟨offset, b, rest, true⟩]
    else ⟨offset, b, rest.take n, false⟩ :: decodeFrom (offset + 1 + n) (rest.drop n)
termination_by l => l.length
decreasing_by simp only [List.length_drop, List.length_cons]; omega

/-- The instructions of a code string. -/
def decode (code : List UInt8) : List Instruction := decodeFrom 0 code

/-- The instruction at `pc`, read on its own: nothing at or past the end. -/
def fetch (code : List UInt8) (pc : Nat) : Option Instruction :=
  match code.drop pc with
  | [] => none
  | b :: rest =>
    let n := Opcode.operandLen b
    let ops := rest.take n
    some ⟨pc, b, ops, decide (ops.length < n)⟩

/-- How many instructions the walk finds, a truncated last one included. -/
def instructionCount (code : List UInt8) : Nat := (decode code).length

end Code

/-- The value a literal instruction pushes, given its complete operands. -/
def literalValue (op : UInt8) (operands : List UInt8) : Int32 :=
  let v := Bytes.leValue operands
  if op = Op.litI8.byte then Int32.ofInt (Bytes.signed 8 v)
  else if op = Op.litI16.byte then Int32.ofInt (Bytes.signed 16 v)
  else Int32.ofInt (Bytes.signed 32 v)

namespace Instruction

/-- The opcode byte and the operands, as they stand in the code. -/
def bytes (i : Instruction) : List UInt8 := i.opcode :: i.operands

/-- The name of the instruction's opcode. -/
def name (i : Instruction) : String := (Opcode.info i.opcode).name

/-- The length of a complete instruction; a truncated one has none. -/
def length (i : Instruction) : Nat := if i.truncated then 0 else 1 + i.operands.length

/-- The value a complete literal pushes. -/
def value? (i : Instruction) : Option Int32 :=
  if Opcode.isLiteral i.opcode && !i.truncated then some (literalValue i.opcode i.operands)
  else none

/-- The signed displacement of a complete jump. -/
def displacement? (i : Instruction) : Option Int :=
  if Opcode.isJump i.opcode && !i.truncated then some (Bytes.signed 16 (Bytes.leValue i.operands))
  else none

/-- Where a complete jump lands when taken: its end plus the displacement. -/
def target? (i : Instruction) : Option Int :=
  i.displacement?.map fun d => (i.offset : Int) + 3 + d

/-- The word index of a complete call. -/
def callTarget? (i : Instruction) : Option UInt16 :=
  if i.opcode = Op.call.byte && !i.truncated then some (UInt16.ofNat (Bytes.leValue i.operands))
  else none

/-- Adds `k` to a complete call's word index, wrapping at `2^16`; other instructions stay. -/
def relocate (k : UInt16) (i : Instruction) : Instruction :=
  match i.callTarget? with
  | some t => { i with operands := Bytes.le16 (t + k).toNat }
  | none => i

end Instruction

namespace Code

/-- The word indices of the calls from `pc` on. The walk steps over each instruction by the
length the table gives its opcode, so operand bytes are never taken for opcodes, and stops at an
instruction whose operands run past the end. -/
def callTargetsFrom (code : List UInt8) (pc : Nat) : List UInt16 :=
  if h : pc < code.length then
    let op := code[pc]
    let next := pc + Opcode.instructionLen op
    if code.length < next then []
    else if op = Op.call.byte then
      UInt16.ofNat (Bytes.leValue ((code.drop (pc + 1)).take 2)) :: callTargetsFrom code next
    else callTargetsFrom code next
  else []
termination_by code.length - pc
decreasing_by all_goals simp only [Opcode.instructionLen]; omega

/-- The word indices of the calls, in order. -/
def callTargets (code : List UInt8) : List UInt16 := callTargetsFrom code 0

/-- Adds `delta` to the word index of every call from `pc` on, writing it back in place, on the
walk of `callTargetsFrom`. -/
def relocateFrom (delta : UInt16) (code : List UInt8) (pc : Nat) : List UInt8 :=
  if h : pc < code.length then
    let op := code[pc]
    let next := pc + Opcode.instructionLen op
    if code.length < next then code
    else if op = Op.call.byte then
      let idx := UInt16.ofNat (Bytes.leValue ((code.drop (pc + 1)).take 2))
      relocateFrom delta (Bytes.writeLE16 code (pc + 1) (idx + delta).toNat) next
    else relocateFrom delta code next
  else code
termination_by code.length - pc
decreasing_by all_goals simp only [Opcode.instructionLen, Bytes.writeLE16, List.length_set]; omega

/-- Adds `k` (modulo `2^16`) to the word index of every call; by zero, the code is left as it
is without a walk. -/
def relocate (k : UInt16) (code : List UInt8) : List UInt8 :=
  if k = 0 then code else relocateFrom k code 0

end Code

end StackLink
