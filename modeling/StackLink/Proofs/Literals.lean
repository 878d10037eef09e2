import Mathlib
import StackLink.Code.Builder
import StackLink.Proofs.InstructionWalks
import StackLink.Proofs.Fields

/-!
# The shortest literal

Four instructions push a constant: `LIT_U8` with one unsigned byte, `LIT_I8` with one signed
byte, `LIT_I16` with two signed bytes and `LIT` with four. A builder asked to push a 32-bit
value picks one of them.

**The builder writes the shortest literal** (`StackLink.Builder.lit_is_shortest_literal`): for
every value it appends one complete literal instruction, which the walk reads as a single
instruction with that value and which the machine, wherever it meets it with room on the data
stack, pushes; and no literal that can push the value is shorter.

The facts behind it:

* what each short literal can push, read off its operand field
  (`StackLink.Op.pushes_litU8_iff`, `StackLink.Op.pushes_litI8_iff`,
  `StackLink.Op.pushes_litI16_iff`): the ranges `0 … 255`, `-128 … 127` and `-32768 … 32767`,
  while `LIT` reads back every value from its four bytes (`StackLink.literalValue_lit_le32`);
* the builder takes the first literal, in that order, whose range holds the value, and writes
  the value's low bytes (`StackLink.Builder.lit_eq`);
* a complete instruction is read back from any code it stands in, by the walk and by the
  machine (`StackLink.Code.decodeFrom_instruction_append`, `StackLink.Code.fetch_instruction`).
-/

namespace StackLink

/-! ### Opcodes and their bytes -/

@[simp] theorem Op.ofByte?_byte (op : Op) : Op.ofByte? op.byte = some op := by
  cases op <;> rfl

@[simp] theorem Opcode.info_byte (op : Op) : Opcode.info op.byte = op.info := by
  simp [Opcode.info]

@[simp] theorem Opcode.operandLen_byte (op : Op) : Opcode.operandLen op.byte = op.info.operandLen := by
  simp [Opcode.operandLen]

/-! ### Reading a complete instruction back -/

namespace Code

/-- The walk reads an opcode followed by its whole operand field as one complete instruction,
and goes on after it. -/
theorem decodeFrom_instruction_append (off : Nat) {op : UInt8} {ops : List UInt8}
    (h : ops.length = Opcode.operandLen op) (rest : List UInt8) :
    decodeFrom off (op :: ops ++ rest) =
      ⟨off, op, ops, false⟩ :: decodeFrom (off + 1 + ops.length) rest := by
  rw [List.cons_append, decodeFrom]
  simp [← h]

/-- The machine reads an opcode with its whole operand field, wherever it stands in a code
string, as the complete instruction it is. -/
theorem fetch_instruction (pre post : List UInt8) {op : UInt8} {ops : List UInt8}
    (h : ops.length = Opcode.operandLen op) :
    fetch (pre ++ (op :: ops) ++ post) pre.length = some ⟨pre.length, op, ops, false⟩ := by
  simp [fetch, ← h]

end Code

/-! ### Two's-complement readings -/

namespace Bytes

/-- The two's-complement reading of bits that already fit. -/
theorem signed_eq_of_lt {k n : Nat} (h : n < Nat.pow 2 k) : signed (k + 1) n = n := by
  have hk : Nat.pow 2 (k + 1) = 2 * Nat.pow 2 k := by
    simp only [Nat.pow_eq, Nat.pow_succ]; omega
  simp only [signed, Nat.add_sub_cancel, hk]
  rw [Nat.mod_eq_of_lt (by omega), if_pos h]

/-- A signed byte written as the low 8 bits of an integer reads back as that integer. -/
theorem signed_ofInt8 {δ : Int} (h0 : -128 ≤ δ) (h1 : δ ≤ 127) :
    signed 8 (UInt8.ofInt δ).toNat = δ := by
  simp [UInt8.ofInt, signed]
  split <;> omega

/-- A signed 16-bit number written as the low 16 bits of an integer reads back as that
integer. -/
theorem signed_ofInt16 {δ : Int} (h0 : -32768 ≤ δ) (h1 : δ ≤ 32767) :
    signed 16 (UInt16.ofInt δ).toNat = δ := by
  simp [UInt16.ofInt, signed]
  split <;> omega

/-- The two's-complement reading of a cell's 32 bits is the cell. -/
theorem signed_toUInt32 (v : Int32) : signed 32 v.toUInt32.toNat = v.toInt := by
  have hv := v.toBitVec.toInt_eq_toNat_cond
  have hlt := v.toUInt32.toNat_lt
  have h1 : v.toUInt32.toNat = v.toBitVec.toNat := rfl
  have h2 : v.toInt = v.toBitVec.toInt := rfl
  rw [h1, h2, hv]
  rw [h1] at hlt
  simp only [signed, Nat.pow_eq]
  norm_num
  split <;> split <;> omega

end Bytes

/-! ### What a literal can push -/

/-- `LIT_U8` pushes its byte as it is. -/
theorem toInt_literalValue_litU8 (x : UInt8) :
    (literalValue Op.litU8.byte [x]).toInt = x.toNat := by
  have h256 := x.toNat_lt
  have hx : x.toNat < Nat.pow 2 31 := by simp only [Nat.pow_eq]; omega
  simp only [literalValue, Op.byte, Bytes.leValue, Nat.mul_zero, Nat.add_zero]
  simp [Bytes.signed_eq_of_lt hx]
  apply Int.bmod_eq_of_le <;> simp only [Int32.size] <;> omega

/-- `LIT_I8` pushes its operand read as a signed byte. -/
theorem toInt_literalValue_litI8 (ops : List UInt8) :
    (literalValue Op.litI8.byte ops).toInt = Bytes.signed 8 (Bytes.leValue ops) := by
  simp [literalValue, Op.byte, Bytes.bmod_signed (k := 7) (by omega)]

/-- `LIT_I16` pushes its operand read as a signed little-endian 16-bit number. -/
theorem toInt_literalValue_litI16 (ops : List UInt8) :
    (literalValue Op.litI16.byte ops).toInt = Bytes.signed 16 (Bytes.leValue ops) := by
  simp [literalValue, Op.byte, Bytes.bmod_signed (k := 15) (by omega)]

/-- `LIT` pushes its four bytes read as a signed little-endian 32-bit number. -/
theorem literalValue_lit (ops : List UInt8) :
    literalValue Op.lit.byte ops = Int32.ofInt (Bytes.signed 32 (Bytes.leValue ops)) := by
  simp [literalValue, Op.byte]

variable {v : Int32}

theorem literalValue_litU8_ofInt (h0 : 0 ≤ v.toInt) (h1 : v.toInt ≤ 255) :
    literalValue Op.litU8.byte [UInt8.ofInt v.toInt] = v := by
  apply Int32.toInt_inj.mp
  rw [toInt_literalValue_litU8]
  simp [UInt8.ofInt]
  omega

theorem literalValue_litI8_ofInt (h0 : -128 ≤ v.toInt) (h1 : v.toInt ≤ 127) :
    literalValue Op.litI8.byte [UInt8.ofInt v.toInt] = v := by
  apply Int32.toInt_inj.mp
  rw [toInt_literalValue_litI8, Bytes.leValue, Bytes.leValue, Nat.mul_zero, Nat.add_zero,
    Bytes.signed_ofInt8 h0 h1]

theorem literalValue_litI16_ofInt (h0 : -32768 ≤ v.toInt) (h1 : v.toInt ≤ 32767) :
    literalValue Op.litI16.byte (Bytes.le16 (UInt16.ofInt v.toInt).toNat) = v := by
  apply Int32.toInt_inj.mp
  rw [toInt_literalValue_litI16, Bytes.leValue_le16 (UInt16.toNat_lt _), Bytes.signed_ofInt16 h0 h1]

theorem literalValue_lit_le32 (v : Int32) :
    literalValue Op.lit.byte (Bytes.le32 v.toUInt32.toNat) = v := by
  rw [literalValue_lit, Bytes.leValue_le32 v.toUInt32.toNat_lt, Bytes.signed_toUInt32,
    Int32.ofInt_toInt]

/-- Literal `op` can push `v`: some operand field of the width the table gives it reads as
`v`. -/
def Op.Pushes (op : Op) (v : Int32) : Prop :=
  ∃ ops : List UInt8, ops.length = op.info.operandLen ∧ literalValue op.byte ops = v

/-- The four literals, shortest first. -/
def Op.literals : List Op := [.litU8, .litI8, .litI16, .lit]

theorem Op.isLiteral_byte {op : Op} (h : op ∈ Op.literals) : Opcode.isLiteral op.byte = true := by
  simp only [Op.literals, List.mem_cons, List.not_mem_nil, or_false] at h
  rcases h with rfl | rfl | rfl | rfl <;> rfl

namespace Op

theorem pushes_litU8_iff : Op.litU8.Pushes v ↔ 0 ≤ v.toInt ∧ v.toInt ≤ 255 := by
  constructor
  · rintro ⟨ops, hlen, rfl⟩
    obtain ⟨x, rfl⟩ := List.length_eq_one_iff.mp hlen
    have := x.toNat_lt
    rw [toInt_literalValue_litU8]
    omega
  · rintro ⟨h0, h1⟩
    exact ⟨_, rfl, literalValue_litU8_ofInt h0 h1⟩

theorem pushes_litI8_iff : Op.litI8.Pushes v ↔ -128 ≤ v.toInt ∧ v.toInt ≤ 127 := by
  constructor
  · rintro ⟨ops, -, rfl⟩
    have hb : -(Nat.pow 2 7 : Int) ≤ Bytes.signed 8 (Bytes.leValue ops) ∧
        Bytes.signed 8 (Bytes.leValue ops) < Nat.pow 2 7 :=
      Bytes.signed_bounds 7 _
    rw [toInt_literalValue_litI8]
    simp only [Nat.pow_eq] at hb
    omega
  · rintro ⟨h0, h1⟩
    exact ⟨_, rfl, literalValue_litI8_ofInt h0 h1⟩

theorem pushes_litI16_iff : Op.litI16.Pushes v ↔ -32768 ≤ v.toInt ∧ v.toInt ≤ 32767 := by
  constructor
  · rintro ⟨ops, -, rfl⟩
    have hb : -(Nat.pow 2 15 : Int) ≤ Bytes.signed 16 (Bytes.leValue ops) ∧
        Bytes.signed 16 (Bytes.leValue ops) < Nat.pow 2 15 :=
      Bytes.signed_bounds 15 _
    rw [toInt_literalValue_litI16]
    simp only [Nat.pow_eq] at hb
    omega
  · rintro ⟨h0, h1⟩
    exact ⟨_, rfl, literalValue_litI16_ofInt h0 h1⟩

end Op

namespace Builder

/-- The builder picks the first literal, shortest first, that can push the value, and writes
an operand field that reads as the value. -/
theorem lit_eq (b : Builder) (v : Int32) :
    ∃ op ∈ Op.literals, ∃ ops, b.lit v = ({ code := b.code ++ op.byte :: ops }, b.code.length) ∧
      ops.length = op.info.operandLen ∧ literalValue op.byte ops = v ∧
      ∀ op' ∈ Op.literals, op'.Pushes v → op.info.operandLen ≤ op'.info.operandLen := by
  -- every literal takes at least one operand byte, `LIT_I16` two and `LIT` four
  have hwidth : ∀ op' ∈ Op.literals, op'.Pushes v → 1 ≤ op'.info.operandLen := fun op' hop' _ =>
    (by decide : ∀ op' ∈ Op.literals, 1 ≤ op'.info.operandLen) op' hop'
  unfold lit
  dsimp only
  by_cases hu8 : 0 ≤ v.toInt ∧ v.toInt ≤ 0xFF
  · rw [if_pos hu8]
    exact ⟨.litU8, by decide, _, rfl, rfl, literalValue_litU8_ofInt hu8.1 hu8.2, hwidth⟩
  rw [if_neg hu8]
  by_cases hi8 : -128 ≤ v.toInt ∧ v.toInt < 0
  · rw [if_pos hi8]
    exact ⟨.litI8, by decide, _, rfl, rfl, literalValue_litI8_ofInt hi8.1 (by omega), hwidth⟩
  rw [if_neg hi8]
  -- past the one-byte ranges, only `LIT_I16` and `LIT` can push the value
  have hwide : ∀ op' ∈ Op.literals, op'.Pushes v → 2 ≤ op'.info.operandLen := by
    intro op' hop' hpush
    simp only [Op.literals, List.mem_cons, List.not_mem_nil, or_false] at hop'
    rcases hop' with rfl | rfl | rfl | rfl
    · exact absurd (Op.pushes_litU8_iff.mp hpush) hu8
    · exact absurd (Op.pushes_litI8_iff.mp hpush) (by omega)
    all_goals decide
  by_cases hi16 : -32768 ≤ v.toInt ∧ v.toInt ≤ 32767
  · rw [if_pos hi16]
    exact ⟨.litI16, by decide, _, rfl, rfl, literalValue_litI16_ofInt hi16.1 hi16.2, hwide⟩
  rw [if_neg hi16]
  refine ⟨.lit, by decide, _, rfl, rfl, literalValue_lit_le32 v, fun op' hop' hpush => ?_⟩
  simp only [Op.literals, List.mem_cons, List.not_mem_nil, or_false] at hop'
  rcases hop' with rfl | rfl | rfl | rfl
  · exact absurd (Op.pushes_litU8_iff.mp hpush) hu8
  · exact absurd (Op.pushes_litI8_iff.mp hpush) (by omega)
  · exact absurd (Op.pushes_litI16_iff.mp hpush) hi16
  · exact le_rfl

/-- **The builder writes the shortest literal.** For every value `v`, `lit` appends one
instruction `e` at the end of the code and returns the offset it starts at. The walk reads `e`
as a single complete literal whose value is `v`; wherever the machine meets `e` in a word, with
room on the data stack and within the step limit, it pushes `v` and goes on right after it; and
every literal that can push `v` is at least as long as `e`. -/
theorem lit_is_shortest_literal (b : Builder) (v : Int32) :
    ∃ (e : List UInt8) (i : Instruction),
      b.lit v = ({ code := b.code ++ e }, b.code.length) ∧
      Code.decode e = [i] ∧ i.truncated = false ∧ Opcode.isLiteral i.opcode = true ∧
      i.value? = some v ∧
      (∀ (sys : Option (SysHandler Id)) (m : Machine) (c : Cursor) (pre post : List UInt8),
        c.word.code = pre ++ e ++ post → c.pc = pre.length →
        (m.config.maxSteps ≤ 0 ∨ (c.steps : Int) < m.config.maxSteps) →
        m.data.length < m.config.stackDepth →
        Id.run (m.step sys c) = .next { m with data := v :: m.data }
          { c with pc := c.pc + e.length, steps := c.steps + 1 }) ∧
      ∀ op ∈ Op.literals, op.Pushes v → e.length ≤ 1 + op.info.operandLen := by
  obtain ⟨op, hop, ops, hlit, hlen, hval, hmin⟩ := lit_eq b v
  have hlen' : ops.length = Opcode.operandLen op.byte := by rw [Opcode.operandLen_byte, hlen]
  have hisLit := Op.isLiteral_byte hop
  refine ⟨op.byte :: ops, ⟨0, op.byte, ops, false⟩, hlit, ?_, rfl, hisLit, ?_, ?_, ?_⟩
  · have h := Code.decodeFrom_instruction_append 0 hlen' []
    rw [List.append_nil] at h
    rw [Code.decode, h, Code.decodeFrom]
  · simp [Instruction.value?, hisLit, hval]
  · intro sys m c pre post hcode hpc hlim hroom
    have hf : Code.fetch c.word.code c.pc = some ⟨pre.length, op.byte, ops, false⟩ := by
      rw [hcode, hpc]
      exact Code.fetch_instruction pre post hlen'
    rw [Machine.step_literal hf hisLit rfl hlim hroom, hval, List.length_cons, Nat.add_comm ops.length,
      Nat.add_assoc]
  · intro op' hop' hpush
    have := hmin op' hop' hpush
    simp only [List.length_cons]
    omega

/-- Just past the one-byte ranges, and at the edges of the 16-bit one. -/
example : (({} : Builder).lit (-129)).1.code = [Op.litI16.byte, 0x7F, 0xFF] ∧
    (({} : Builder).lit 256).1.code = [Op.litI16.byte, 0x00, 0x01] ∧
    (({} : Builder).lit 32768).1.code = [Op.lit.byte, 0x00, 0x80, 0x00, 0x00] := by
  decide

end Builder

end StackLink
