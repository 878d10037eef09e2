import Mathlib
import StackLink.Machine.Run

/-!
# What a failed instruction leaves behind

A run that fails stops at the instruction that failed and keeps the machine that instruction
left. Most instructions check everything before they change anything, so a failure leaves
the machine exactly as the instruction found it. Two do not. They take the top data cell
first and check something later:

* `TOR` pops the data stack, then pushes onto the return stack, which may be full;
* a taken `JZ` or `JNZ` pops its flag, then checks that the jump target lies inside the word.

When that later check fails, the data stack has lost its top cell. This is the whole
exception (`StackLink.Machine.failed_instruction_keeps_machine_or_pops`): a failed
instruction other than `SYS` never touches the return stack, memory or the word table, and
it changes the data stack only by these two pops (`StackLink.Machine.PopsThenFails`).
`StackLink.Machine.tor_overflow_pops_data` is a run in which the first of them happens.
-/

namespace StackLink

/-- The byte an opcode is read from is the opcode's own byte. -/
theorem Op.byte_of_ofByte? {b : UInt8} {op : Op} (h : Op.ofByte? b = some op) : op.byte = b := by
  simpa using List.find?_some h

namespace Machine

/-- The failures that come after instruction `i` has taken the top data cell `a`. Here `i`
runs as `op` in `code` and ends at `next`. They are `TOR` onto a full return stack, and a
taken `JZ` or `JNZ` whose target lies outside the code. -/
def PopsThenFails (m : Machine) (code : List UInt8) (next : Nat) (i : Instruction) (op : Op)
    (a : Int32) : Prop :=
  (op = .toR ∧ m.config.stackDepth ≤ m.ret.length) ∨
    ((op = .jz ∧ a = 0 ∨ op = .jnz ∧ a ≠ 0) ∧
      let t := (next : Int) + Bytes.signed 16 (Bytes.leValue i.operands)
      t < 0 ∨ t > code.length)

variable {m m' : Machine} {c : Cursor} {i : Instruction} {op : Op} {e : RunError}

/-- An instruction other than `SYS` that fails leaves the machine as it found it, or with
the top data cell gone after one of the failures of `PopsThenFails`. -/
theorem execute_fail_machine (h : m.execute c i op = .fail m' e) (hop : op ≠ .sys) :
    m' = m ∨ ∃ a rest, m.data = a :: rest ∧ m' = { m with data := rest } ∧
      PopsThenFails m c.word.code c.pc i op a := by
  unfold execute at h
  dsimp only at h
  split at h <;> (repeat' split at h) <;> (try cases h) <;> (try exact .inl rfl)
  · -- `TOR` has taken the cell when the push onto the return stack fails
    rename_i a rest hd _ e hr
    refine .inr ⟨a, rest, hd, rfl, .inl ⟨rfl, ?_⟩⟩
    unfold rpush at hr
    split at hr
    · assumption
    · cases hr
  all_goals
    -- a taken jump whose target is outside the word; `JZ` and `JNZ` have taken the flag
    rename_i hout hp
    split at hp
    · cases hp; exact .inl rfl
    · split at hp
      · cases hp
      · rename_i hjmp _ v rest hd
        simp only [Except.ok.injEq, Prod.mk.injEq] at hp
        obtain ⟨htaken, rfl⟩ := hp
        refine .inr ⟨v, rest, hd, rfl, .inr ⟨?_, hout⟩⟩
        revert htaken hjmp
        simp

/-- **A failed instruction other than `SYS` keeps the machine, or pops the data stack
first.** A step that fails at an instruction other than `SYS` either leaves the machine as
it found it, or leaves it with only the top data cell gone. The second happens only for a
`TOR` onto a full return stack or for a taken `JZ` or `JNZ` whose target lies outside the
word. The return stack, memory and word table always stay as they were. -/
theorem failed_instruction_keeps_machine_or_pops (sys : Option (SysHandler Id))
    (hf : Code.fetch c.word.code c.pc = some i) (hsys : i.opcode ≠ Op.sys.byte)
    (h : Id.run (m.step sys c) = .fail m' e) :
    m' = m ∨ ∃ op a rest, op.byte = i.opcode ∧ m.data = a :: rest ∧ m' = { m with data := rest } ∧
      PopsThenFails m c.word.code (c.pc + 1 + i.operands.length) i op a := by
  unfold step at h
  rw [hf] at h
  dsimp only at h
  -- the step limit, a truncated instruction and an unknown opcode fail before anything runs
  split at h
  · cases h; exact .inl rfl
  split at h
  · cases h; exact .inl rfl
  split at h
  · cases h; exact .inl rfl
  · rename_i hsome
    exact absurd (Op.byte_of_ofByte? hsome).symm hsys
  · rename_i op hop hsome
    rcases execute_fail_machine h hop with rfl | ⟨a, rest, hd, rfl, hp⟩
    · exact .inl rfl
    · exact .inr ⟨op, a, rest, Op.byte_of_ofByte? hsome, hd, rfl, hp⟩

/-- The second `TOR` of `LIT_U8 5; TOR; LIT_U8 6; TOR`, on a machine with one cell of stack
depth, is one of the failures that pop first. -/
theorem tor_overflow_is_a_late_failure :
    let cfg : MachineConfig := { MachineConfig.default with stackDepth := 1 }
    let w : Word := ⟨-1, [], [0x76, 5, 0x30, 0x76, 6, 0x30]⟩
    let m : Machine := ⟨cfg, #[], [6], [5], #[]⟩
    let c : Cursor := ⟨w, 5, [], 3⟩
    let i : Instruction := ⟨5, 0x30, [], false⟩
    Code.fetch c.word.code c.pc = some i ∧ i.opcode ≠ Op.sys.byte ∧
      Id.run (m.step none c) =
        .fail ⟨cfg, #[], [], [5], #[]⟩ (.exec ⟨[], 5, 0x30, .stackOverflow⟩) ∧
      (⟨cfg, #[], [], [5], #[]⟩ = m ∨ ∃ op a rest, op.byte = i.opcode ∧ m.data = a :: rest ∧
        (⟨cfg, #[], [], [5], #[]⟩ : Machine) = { m with data := rest } ∧
        PopsThenFails m c.word.code (c.pc + 1 + i.operands.length) i op a) :=
  ⟨rfl, by decide, rfl, failed_instruction_keeps_machine_or_pops none rfl (by decide) rfl⟩

/-- A machine with one cell of stack depth, running `LIT_U8 5; TOR; LIT_U8 6; TOR`, reaches
the second `TOR` with `6` on the data stack and `5` on the full return stack. That `TOR`
fails with a stack overflow and leaves the data stack empty. -/
theorem tor_overflow_pops_data :
    let cfg : MachineConfig := { MachineConfig.default with stackDepth := 1 }
    let w : Word := ⟨-1, [], [0x76, 5, 0x30, 0x76, 6, 0x30]⟩
    Id.run ((⟨cfg, #[], [6], [5], #[]⟩ : Machine).step none ⟨w, 5, [], 3⟩) =
      .fail ⟨cfg, #[], [], [5], #[]⟩ (.exec ⟨[], 5, 0x30, .stackOverflow⟩) :=
  rfl

end Machine

end StackLink
