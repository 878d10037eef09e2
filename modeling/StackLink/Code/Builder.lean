import StackLink.Code.Instruction

/-!
# Building code

A builder appends instructions to a growing code string and returns the offset
of each one. Literals take the shortest encoding that holds their value
(`LIT_U8`, `LIT_I8`, `LIT_I16`, else `LIT`). A forward jump is written with a
placeholder displacement `FF FF` and patched once its target is known; a
backward jump to a known offset (`emitLoop`) is written whole. Displacements
are taken from the end of the jump and wrap to 16 bits.

Patching writes two bytes at a placeholder offset; an offset that leaves no room
for them is a range fault.
-/

namespace StackLink

/-- Code under construction. -/
structure Builder where
  code : List UInt8 := []
deriving DecidableEq, Repr

namespace Builder

/-- The offset the next instruction will have. -/
def currentOffset (b : Builder) : Nat := b.code.length

/-- Appends an opcode and operand bytes, and returns the instruction's offset. -/
def emitWithOperand (b : Builder) (op : UInt8) (operands : List UInt8) : Builder × Nat :=
  ({ code := b.code ++ op :: operands }, b.code.length)

/-- Appends a bare opcode. -/
def emit (b : Builder) (op : UInt8) : Builder × Nat := b.emitWithOperand op []

/-- Appends a full 32-bit literal. -/
def lit32 (b : Builder) (v : Int32) : Builder × Nat :=
  b.emitWithOperand Op.lit.byte (Bytes.le32 v.toUInt32.toNat)

/-- Appends the shortest literal that pushes `v`. -/
def lit (b : Builder) (v : Int32) : Builder × Nat :=
  let i := v.toInt
  if 0 ≤ i ∧ i ≤ 0xFF then b.emitWithOperand Op.litU8.byte [UInt8.ofInt i]
  else if -128 ≤ i ∧ i < 0 then b.emitWithOperand Op.litI8.byte [UInt8.ofInt i]
  else if -32768 ≤ i ∧ i ≤ 32767 then
    b.emitWithOperand Op.litI16.byte (Bytes.le16 (UInt16.ofInt i).toNat)
  else b.lit32 v

/-- Appends a call of word `idx`. -/
def call (b : Builder) (idx : UInt16) : Builder × Nat :=
  b.emitWithOperand Op.call.byte (Bytes.le16 idx.toNat)

/-- Appends a system call: the number, then the arguments cut or zero-padded to fifteen bytes. -/
def sys (b : Builder) (id : UInt8) (args : List UInt8) : Builder × Nat :=
  let n := sysOperandLen - 1
  b.emitWithOperand Op.sys.byte (id :: (args.take n ++ List.replicate (n - args.length) 0))

/-- Appends a jump with a placeholder displacement and returns the placeholder's offset. -/
def emitJump (b : Builder) (op : UInt8) : Builder × Nat :=
  ({ code := b.code ++ [op, 0xFF, 0xFF] }, b.code.length + 1)

/-- Writes the displacement from the placeholder's end to `target` into the placeholder. -/
def patchJumpTo (b : Builder) (placeholder target : Int) : Except RangeFault Builder :=
  let len := b.code.length
  if placeholder < 0 ∨ placeholder > len then .error (.sliceFrom placeholder len)
  else if len - placeholder.toNat < 2 then .error (.index 1 (len - placeholder.toNat))
  else
    let p := placeholder.toNat
    let d := Bytes.le16 (UInt16.ofInt (target - (placeholder + 2))).toNat
    .ok { code := b.code.take p ++ d ++ b.code.drop (p + 2) }

/-- Patches a placeholder to jump to the current end of the code. -/
def patchJump (b : Builder) (placeholder : Int) : Except RangeFault Builder :=
  b.patchJumpTo placeholder b.code.length

/-- Appends a jump back (or forward) to `start`. -/
def emitLoop (b : Builder) (start : Int) : Builder :=
  let d := UInt16.ofInt (start - (b.code.length + 3))
  { code := b.code ++ Op.jmp.byte :: Bytes.le16 d.toNat }

end Builder

end StackLink
