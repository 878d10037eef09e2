import Mathlib
import StackLink.Proofs.Safety

/-!
# Instructions keep to their table entries

The opcode table gives every opcode how many data cells it takes and leaves, and how many
operand bytes follow it; listings and every walk over code read it. The machine carries out
each instruction by its own arm. This file shows that the two agree.

**An instruction moves the data stack as its table entry says**
(`StackLink.Machine.step_follows_stack_effect`): for a complete instruction of a known opcode
other than `CALL`, `RET` and `SYS`, within the step limit, a step that goes on changes the
depth of the data stack by what the table leaves less what it takes, and moves the run right
past the instruction or, for a jump, to the jump's target; and on a data stack shorter than
the table says the instruction takes, it fails with a stack underflow. The facts behind it:

* a step at such an instruction is the instruction's arm, with the run moved past it
  (`StackLink.Machine.step_of_fetch`), and the operands read are the whole field the table
  gives (`StackLink.Code.length_operands_of_fetch`);
* every arm that goes on takes and leaves the table's counts
  (`StackLink.Machine.execute_stack_effect`);
* every arm, given fewer cells than the table says, fails with a stack underflow before it
  touches anything (`StackLink.Machine.execute_underflow`).
-/

namespace StackLink

/-- The two-operand instructions take two cells and leave one. -/
theorem Op.info_of_isBinary {op : Op} (h : op.isBinary = true) :
    op.info.pop = some 2 ∧ op.info.push = 1 := by
  cases op <;> simp_all [Op.isBinary, Op.info]

/-- A complete instruction read at `pc` carries the whole operand field of its opcode. -/
theorem Code.length_operands_of_fetch {code : List UInt8} {pc : Nat} {i : Instruction}
    (h : Code.fetch code pc = some i) (ht : i.truncated = false) :
    i.operands.length = Opcode.operandLen i.opcode := by
  unfold Code.fetch at h
  split at h
  · cases h
  · cases h
    simp only [decide_eq_false_iff_not, Nat.not_lt] at ht
    simp only [List.length_take] at ht ⊢
    omega

namespace Machine

variable {m m' : Machine} {c c' : Cursor} {i : Instruction} {op : Op}

theorem execute_stack_effect (hcall : op ≠ .call) (hret : op ≠ .ret) (hsys : op ≠ .sys)
    (h : m.execute c i op = .next m' c') :
    ∃ p, op.info.pop = some p ∧ m'.data.length + p = m.data.length + op.info.push ∧
      (c' = c ∨ (op = .jmp ∨ op = .jz ∨ op = .jnz) ∧
        ∃ t : Int, t = c.pc + Bytes.signed 16 (Bytes.leValue i.operands) ∧ 0 ≤ t ∧
          c' = { c with pc := t.toNat }) := by
  unfold execute at h
  dsimp only at h
  split at h <;> (repeat' split at h) <;> (try cases h) <;>
    grind [Op.info, push_eq_ok, rpush_eq_ok, → writeMemory_eq_ok, writeMemory32,
      → Op.info_of_isBinary]

theorem execute_underflow {p : Nat} (hp : op.info.pop = some p) (hlt : m.data.length < p) :
    m.execute c i op = .fail m (.exec ⟨c.word.name, i.offset, i.opcode, .stackUnderflow⟩) := by
  have hp3 : p ≤ 3 := by cases op <;> simp [Op.info] at hp <;> omega
  -- fewer than three cells: the stack is one of three short ones, and every arm fails on it
  obtain ⟨xs, hxs, hshort⟩ : ∃ xs : List Int32, m.data = xs ∧ xs.length < p := ⟨_, rfl, hlt⟩
  rcases xs with _ | ⟨a, _ | ⟨b, _ | ⟨x, rest⟩⟩⟩
  case cons.cons.cons => simp at hshort; omega
  all_goals
    cases op <;> simp only [Op.info, Option.some.injEq, reduceCtorEq] at hp <;> subst hp <;>
      simp_all [execute, Op.isBinary]

/-- Within the step limit, a step at a complete instruction other than `SYS` carries it out with
the run moved past it and the instruction counted. -/
theorem step_of_fetch {sys : Option (SysHandler Id)} (hi : Code.fetch c.word.code c.pc = some i)
    (hop : Op.ofByte? i.opcode = some op) (hsys : op ≠ .sys) (hcomplete : i.truncated = false)
    (hlim : m.config.maxSteps ≤ 0 ∨ (c.steps : Int) < m.config.maxSteps) :
    Id.run (m.step sys c) =
      m.execute { c with pc := c.pc + 1 + i.operands.length, steps := c.steps + 1 } i op := by
  unfold step
  rw [hi]
  dsimp only
  rw [if_neg (by omega), if_neg (by simp [hcomplete])]
  split
  · simp_all
  · simp_all
  · rename_i op' hop'
    rw [hop] at hop'
    cases hop'
    rfl

/-- **An instruction moves the data stack as its table entry says.** Take a complete instruction
of a known opcode other than `CALL`, `RET` and `SYS`, read where a run stands, within the step
limit. Its table entry fixes how many cells it takes. If the step goes on, the data stack has
lost that many cells and gained as many as the table says it leaves, and the run stands right
after the instruction, or, for a jump, at the jump's target. If the data stack holds fewer
cells than it takes, the instruction fails with a stack underflow and leaves the machine as it
was. -/
theorem step_follows_stack_effect {sys : Option (SysHandler Id)}
    (hi : Code.fetch c.word.code c.pc = some i) (hop : Op.ofByte? i.opcode = some op)
    (hcall : op ≠ .call) (hret : op ≠ .ret) (hsys : op ≠ .sys) (hcomplete : i.truncated = false)
    (hlim : m.config.maxSteps ≤ 0 ∨ (c.steps : Int) < m.config.maxSteps) :
    ∃ p, (Opcode.info i.opcode).pop = some p ∧
      (∀ m' c', Id.run (m.step sys c) = .next m' c' →
        m'.data.length + p = m.data.length + (Opcode.info i.opcode).push ∧
        (c'.pc = c.pc + Opcode.instructionLen i.opcode ∨
          Opcode.isJump i.opcode ∧ i.target? = some (c'.pc : Int))) ∧
      (m.data.length < p →
        Id.run (m.step sys c) = .fail m (.exec ⟨c.word.name, c.pc, i.opcode, .stackUnderflow⟩)) := by
  have hinfo : Opcode.info i.opcode = op.info := by simp [Opcode.info, hop]
  have hlen : i.operands.length = op.info.operandLen := by
    rw [Code.length_operands_of_fetch hi hcomplete, Opcode.operandLen, hinfo]
  have hstep : Id.run (m.step sys c) = _ := step_of_fetch hi hop hsys hcomplete hlim
  obtain ⟨p, hp⟩ : ∃ p, op.info.pop = some p := by
    cases op <;> simp_all [Op.info]
  refine ⟨p, hinfo ▸ hp, fun m' c' hs => ?_, fun hlt => ?_⟩
  · rw [hstep] at hs
    obtain ⟨p', hp', hdata, hcur⟩ := execute_stack_effect hcall hret hsys hs
    obtain rfl : p = p' := by simpa [hp] using hp'
    refine ⟨by rw [hinfo]; omega, ?_⟩
    rcases hcur with rfl | ⟨hjump, t, ht, h0, rfl⟩
    · -- in place: right after the instruction
      left
      simp only [Opcode.instructionLen, Opcode.operandLen, hinfo, hlen]
      omega
    · -- a taken jump: at its target, the end of the jump plus the displacement
      right
      have hbyte := Op.byte_of_ofByte? hop
      have hj : Opcode.isJump i.opcode = true := by
        rw [← hbyte]; rcases hjump with rfl | rfl | rfl <;> decide
      refine ⟨hj, ?_⟩
      have hl : i.operands.length = 2 := by
        rw [hlen]; rcases hjump with rfl | rfl | rfl <;> rfl
      simp only [Instruction.target?, Instruction.displacement?, hj, hcomplete, Bool.not_false,
        Bool.and_self, if_true, Option.map_some, Code.offset_of_fetch hi, Option.some.injEq]
      simp only [hl] at ht
      omega
  · rw [hstep, execute_underflow hp hlt]
    simp [Code.offset_of_fetch hi]

/-- `DUP` on a fresh machine: its table entry takes one cell, and with none there it fails with
a stack underflow. -/
theorem dup_follows_stack_effect :
    let m := Machine.new { MachineConfig.default with memorySize := 4 }
    let c : Cursor := ⟨⟨-1, [], [0x01]⟩, 0, [], 0⟩
    let i : Instruction := ⟨0, 0x01, [], false⟩
    Code.fetch c.word.code c.pc = some i ∧ Op.ofByte? i.opcode = some .dup ∧ Op.dup ≠ .call ∧
      Op.dup ≠ .ret ∧ Op.dup ≠ .sys ∧ i.truncated = false ∧
      (m.config.maxSteps ≤ 0 ∨ (c.steps : Int) < m.config.maxSteps) ∧
      ∃ p, (Opcode.info i.opcode).pop = some p ∧
        (∀ m' c', Id.run (m.step none c) = .next m' c' →
          m'.data.length + p = m.data.length + (Opcode.info i.opcode).push ∧
          (c'.pc = c.pc + Opcode.instructionLen i.opcode ∨
            Opcode.isJump i.opcode ∧ i.target? = some (c'.pc : Int))) ∧
        (m.data.length < p →
          Id.run (m.step none c) = .fail m (.exec ⟨c.word.name, c.pc, i.opcode, .stackUnderflow⟩)) := by
  intro m c i
  have hi : Code.fetch c.word.code c.pc = some i := by decide
  have hop : Op.ofByte? i.opcode = some .dup := by decide
  have hlim : m.config.maxSteps ≤ 0 ∨ (c.steps : Int) < m.config.maxSteps := .inr (by decide)
  exact ⟨hi, hop, by decide, by decide, by decide, rfl, hlim,
    step_follows_stack_effect hi hop (by decide) (by decide) (by decide) rfl hlim⟩

end Machine

end StackLink
