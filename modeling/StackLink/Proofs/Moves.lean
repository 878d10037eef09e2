import Mathlib
import StackLink.Proofs.InstructionWalks

/-!
# What a step does, apart from where the run stands

An instruction does two things: work on the machine (the stacks, memory, a handler's call) and
move the run on. The work never looks at where the run stands: not at the word, the offset or
the callers. Only the move does, and there are four moves
(`StackLink.Machine.Move`): on to the next instruction, a taken jump by a displacement, a call
into a word, and a return. Where a move leads from a given place is
`StackLink.Machine.Move.apply`: a jump is checked against the word's code, a call against the
depth of the callers, and a return with no caller ends the run.

So a step factors into an *effect*, which depends on the machine and the instruction only
(`StackLink.Machine.effect`, `StackLink.Machine.instructionEffect`), and the move applied at the
place past the instruction (`StackLink.Step.ofEffect`):

* `StackLink.Machine.execute_eq`: an instruction other than a handled system call;
* `StackLink.Machine.step_eq`: a whole step, the implicit return at the end of a word being the
  move `ret`.

Two runs that stand at different places but read the same instruction on the same machine
therefore do the same work, and differ only in where the same move takes them. The
simulations between runs of different code are built on this.
-/

namespace StackLink

namespace Machine

/-- How an instruction moves the run on, once it has done its work on the machine. -/
inductive Move where
  /-- On to the next instruction. -/
  | stay
  /-- A taken jump, by `d` bytes from the end of the instruction. -/
  | jump (d : Int)
  /-- Into a word of the table. -/
  | call (w : Word)
  /-- Back to the caller, or the end of the run when there is none. -/
  | ret

/-- Where a move takes a run that stands at `c`, just past the instruction: on from a place, to
the end of the run (`none`), or to a failure of the instruction. `depth` bounds the callers. -/
def Move.apply (depth : Nat) (c : Cursor) : Move → Except VmError (Option Cursor)
  | .stay => .ok (some c)
  | .jump d =>
    let t := (c.pc : Int) + d
    if t < 0 ∨ t > c.word.code.length then .error (.jumpOutOfRange t)
    else .ok (some { c with pc := t.toNat })
  | .call w =>
    if c.frames.length ≥ depth then .error .callDepth
    else .ok (some { c with word := w, pc := 0, frames := ⟨c.word, c.pc⟩ :: c.frames })
  | .ret =>
    match c.frames with
    | [] => .ok none
    | f :: fs => .ok (some { c with word := f.word, pc := f.pc, frames := fs })

/-- What an instruction other than a handled system call does, apart from where the run
stands: the machine it leaves, and the move it makes or the cause it fails with. -/
def effect (m : Machine) (i : Instruction) (op : Op) : Machine × Except VmError Move :=
  let push (m : Machine) (v : Int32) : Machine × Except VmError Move :=
    match m.push v with
    | .ok m' => (m', .ok .stay)
    | .error e => (m, .error e)
  match op, m.data with
  | .lit, _ => push m (UInt32.ofNat (Bytes.leValue i.operands)).toInt32
  | .litU8, _ => push m (Int32.ofNat (i.operands.headD 0).toNat)
  | .litI8, _ => push m (i.operands.headD 0).toInt8.toInt32
  | .litI16, _ => push m (UInt16.ofNat (Bytes.leValue i.operands)).toInt16.toInt32
  | .dup, a :: _ => push m a
  | .drop, _ :: rest => ({ m with data := rest }, .ok .stay)
  | .swap, b :: a :: rest => ({ m with data := a :: b :: rest }, .ok .stay)
  | .over, _ :: a :: _ => push m a
  | .rot, x :: y :: z :: rest => ({ m with data := z :: x :: y :: rest }, .ok .stay)
  | .neg, a :: rest => ({ m with data := -a :: rest }, .ok .stay)
  | .invert, a :: rest => ({ m with data := ~~~a :: rest }, .ok .stay)
  | .toR, a :: rest =>
    let m₁ := { m with data := rest }
    match m₁.rpush a with
    | .ok m₂ => (m₂, .ok .stay)
    | .error e => (m₁, .error e)
  | .toR, [] => (m, .error .stackUnderflow)
  | .fromR, _ =>
    match m.ret with
    | [] => (m, .error .stackUnderflow)
    | r :: rs =>
      match m.push r with
      | .ok m₁ => ({ m₁ with ret := rs }, .ok .stay)
      | .error e => (m, .error e)
  | .rFetch, _ =>
    match m.ret with
    | [] => (m, .error .stackUnderflow)
    | r :: _ => push m r
  | .jmp, _ | .jz, _ | .jnz, _ =>
    let popped : Except VmError (Bool × Machine) :=
      if op = .jmp then .ok (true, m)
      else match m.data with
        | [] => .error .stackUnderflow
        | v :: rest => .ok (decide (v = 0) == decide (op = .jz), { m with data := rest })
    match popped with
    | .error e => (m, .error e)
    | .ok (false, m₁) => (m₁, .ok .stay)
    | .ok (true, m₁) => (m₁, .ok (.jump (Bytes.signed 16 (Bytes.leValue i.operands))))
  | .load, a :: rest =>
    match m.readMemory32 a.toUInt32 with
    | .ok v => ({ m with data := v.toInt32 :: rest }, .ok .stay)
    | .error e => (m, .error e)
  | .load8, a :: rest =>
    match m.readMemory a.toUInt32 1 with
    | .ok bs => ({ m with data := Int32.ofNat (Bytes.leValue bs) :: rest }, .ok .stay)
    | .error e => (m, .error e)
  | .store, a :: v :: rest =>
    match m.writeMemory32 a.toUInt32 v.toUInt32 with
    | .ok m₁ => ({ m₁ with data := rest }, .ok .stay)
    | .error e => (m, .error e)
  | .store8, a :: v :: rest =>
    match m.writeMemory a.toUInt32 [v.toUInt32.toUInt8] with
    | .ok m₁ => ({ m₁ with data := rest }, .ok .stay)
    | .error e => (m, .error e)
  | .call, _ =>
    let idx := Bytes.leValue i.operands
    match m.words[idx]? with
    | none => (m, .error (.badWord idx m.words.size))
    | some w => (m, .ok (.call w))
  | .ret, _ => (m, .ok .ret)
  | .sys, _ => (m, .error (.sysUnsupported (i.operands.headD 0)))
  | op, b :: a :: rest =>
    if op.isBinary then
      match binaryOp op a b with
      | .ok r => ({ m with data := r :: rest }, .ok .stay)
      | .error e => (m, .error e)
    else (m, .error .stackUnderflow)
  | _, _ => (m, .error .stackUnderflow)

end Machine

/-- The step an effect leads to from `c`, the place past the instruction; `fail` records a
cause as a failure of the instruction. -/
def Step.ofEffect (fail : VmError → RunError) (c : Cursor) : Machine × Except VmError Machine.Move → Step
  | (m, .error e) => .fail m (fail e)
  | (m, .ok mv) =>
    match mv.apply m.config.maxCallDepth c with
    | .error e => .fail m (fail e)
    | .ok (some c') => .next m c'
    | .ok none => .done m

namespace Machine

variable {m m' : Machine} {i : Instruction} {op : Op} {mv : Move}

/-- **The moves an instruction makes**: on to the next instruction, a taken jump by the
displacement it carries, a call made by `CALL`, or a return made by `RET`. -/
theorem effect_ok (h : m.effect i op = (m', .ok mv)) :
    mv = .stay ∨
      (∃ d, mv = .jump d ∧ JumpTaken op.byte m.data ∧ d = Bytes.signed 16 (Bytes.leValue i.operands)) ∨
      (∃ w, mv = .call w ∧ op = .call) ∨ (mv = .ret ∧ op = .ret ∧ m' = m) := by
  unfold effect at h
  dsimp only at h
  -- a conditional jump is decided by the top cell, so look at the stack first
  rcases hd : m.data with _ | ⟨v, rest⟩ <;> simp only [hd] at h <;> split at h <;>
    (repeat' split at h) <;> simp_all [JumpTaken]
  -- the calls: the word read from the table
  all_goals obtain ⟨-, rfl⟩ := h; simp

/-- **An instruction's work does not depend on where the run stands**: only the move it makes
is applied at the place past it. -/
theorem execute_eq (c : Cursor) (i : Instruction) (op : Op) :
    m.execute c i op =
      Step.ofEffect (fun e => .exec ⟨c.word.name, i.offset, i.opcode, e⟩) c (m.effect i op) := by
  cases op <;> rcases hd : m.data with _ | ⟨x, _ | ⟨y, _ | ⟨z, rest⟩⟩⟩ <;>
    simp only [execute, effect, hd] <;> (repeat' split) <;> simp_all [Step.ofEffect, Move.apply]
  -- what is left are the taken jumps that land inside the word
  all_goals rw [if_neg (by omega)]

/-- What a step that reads the complete or truncated instruction `i` does, apart from where the
run stands: the checks before the instruction runs (the step limit, a truncated instruction,
an unknown opcode), a handled system call, or the instruction's effect. A handler's abort
ends the run with its reason. -/
def instructionEffect (sys : Option (SysHandler Id)) (m : Machine) (steps : Nat)
    (i : Instruction) : Except String (Machine × Except VmError Move) :=
  if m.config.maxSteps > 0 ∧ ((steps + 1 : Nat) : Int) > m.config.maxSteps then
    .ok (m, .error .stepLimit)
  else if i.truncated then .ok (m, .error .truncated)
  else
    match Op.ofByte? i.opcode with
    | none => .ok (m, .error (.unknownOpcode i.opcode))
    | some .sys =>
      match sys, i.operands with
      | some h, id :: args =>
        match Id.run (h m id args) with
        | .ok m' => .ok (m', .ok .stay)
        | .error m' e => .ok (m', .error e)
        | .abort r => .error r
      | _, _ => .ok (m.effect i .sys)
    | some op => .ok (m.effect i op)

variable {sys : Option (SysHandler Id)}

/-- **A step is its effect applied at the place past the instruction.** At the end of a word
the effect is a return. -/
theorem step_eq (c : Cursor) :
    Id.run (m.step sys c) =
      match Code.fetch c.word.code c.pc with
      | none => Step.ofEffect (fun e => .exec ⟨c.word.name, c.pc, 0, e⟩) c (m, .ok .ret)
      | some i =>
        match instructionEffect sys m c.steps i with
        | .ok E => Step.ofEffect (fun e => .exec ⟨c.word.name, i.offset, i.opcode, e⟩)
            { c with pc := c.pc + 1 + i.operands.length, steps := c.steps + 1 } E
        | .error r => .fail m (.abort r) := by
  unfold step
  rcases Code.fetch c.word.code c.pc with _ | i
  · -- the end of a word
    simp only [Step.ofEffect, Move.apply]
    split <;> simp_all
  · simp only [instructionEffect]
    split_ifs
    · rfl
    · rfl
    · rcases Op.ofByte? i.opcode with _ | op
      · rfl
      by_cases hs : op = .sys
      · -- a system call: the handler's answer, or the machine's own refusal
        subst hs
        rcases sys with _ | h <;> rcases i.operands with _ | ⟨id, args⟩ <;> dsimp only
        · rw [execute_eq]; rfl
        · rw [execute_eq]; rfl
        · rw [execute_eq]; rfl
        · simp only [Id.run_bind]
          rcases Id.run (h m id args) with m' | ⟨m', e⟩ | r <;> rfl
      · cases op <;> dsimp only <;> first | exact absurd rfl hs | (rw [execute_eq]; rfl)

/-- Without a step limit, the count of instructions plays no part in a step. -/
theorem instructionEffect_unlimited (hlim : m.config.maxSteps ≤ 0) (s s' : Nat) :
    instructionEffect sys m s i = instructionEffect sys m s' i := by
  simp only [instructionEffect, gt_iff_lt, show ¬ 0 < m.config.maxSteps by omega, false_and,
    if_false]

/-- **The moves a step's instruction makes**, when it runs: the instruction is complete, and it
goes on, takes a jump by its displacement, calls, or returns at a `RET`. -/
theorem instructionEffect_ok {s : Nat} (h : instructionEffect sys m s i = .ok (m', .ok mv)) :
    i.truncated = false ∧
      (mv = .stay ∨
        (∃ d, mv = .jump d ∧ JumpTaken i.opcode m.data ∧
          d = Bytes.signed 16 (Bytes.leValue i.operands)) ∨
        (∃ w, mv = .call w ∧ i.opcode = Op.call.byte) ∨
        (mv = .ret ∧ i.opcode = Op.ret.byte ∧ m' = m)) := by
  -- an instruction the machine carries out: `effect_ok`, read at the instruction's opcode
  have of_effect : ∀ op, Op.ofByte? i.opcode = some op → m.effect i op = (m', .ok mv) →
      mv = .stay ∨
        (∃ d, mv = .jump d ∧ JumpTaken i.opcode m.data ∧
          d = Bytes.signed 16 (Bytes.leValue i.operands)) ∨
        (∃ w, mv = .call w ∧ i.opcode = Op.call.byte) ∨
        (mv = .ret ∧ i.opcode = Op.ret.byte ∧ m' = m) := by
    intro op hop he
    have hb := Op.byte_of_ofByte? hop
    rcases effect_ok he with rfl | ⟨d, rfl, hj, hd⟩ | ⟨w, rfl, rfl⟩ | ⟨rfl, rfl, rfl⟩
    · exact .inl rfl
    · exact .inr (.inl ⟨d, rfl, hb ▸ hj, hd⟩)
    · exact .inr (.inr (.inl ⟨w, rfl, hb.symm⟩))
    · exact .inr (.inr (.inr ⟨rfl, hb.symm, rfl⟩))
  unfold instructionEffect at h
  split_ifs at h with hlim ht
  · cases h
  · cases h
  refine ⟨by simpa using ht, ?_⟩
  split at h
  · cases h
  · -- `SYS`: a handler's answer goes on, or the machine's own refusal
    rename_i hop
    split at h
    · split at h
      · cases h
        exact .inl rfl
      · cases h
      · cases h
    · exact of_effect _ hop (Except.ok.inj h)
  · rename_i op _ hop
    exact of_effect op hop (Except.ok.inj h)

/-- **A jump a step takes lands at the target its instruction names.** -/
theorem instructionEffect_jump {code : List UInt8} {p s : Nat} {d : Int}
    (hi : Code.fetch code p = some i) (h : instructionEffect sys m s i = .ok (m', .ok (.jump d))) :
    JumpTaken i.opcode m.data ∧ i.target? = some (((p + 1 + i.operands.length : Nat) : Int) + d) := by
  obtain ⟨ht, hmv⟩ := instructionEffect_ok h
  rcases hmv with hmv | ⟨d', hmv, htaken, hd⟩ | ⟨w, hmv, -⟩ | ⟨hmv, -⟩ <;> cases hmv
  refine ⟨htaken, ?_⟩
  -- a complete jump has its two displacement bytes
  obtain ⟨hjump, hwidth⟩ := htaken.isJump
  have hlen : i.operands.length = 2 := (Code.length_operands_of_fetch hi ht).trans hwidth
  simp only [Instruction.target?, Instruction.displacement?, hjump, ht, Bool.not_false,
    Bool.and_self, if_true, Option.map_some, Code.offset_of_fetch hi, hlen, hd, Option.some.injEq]
  omega

end Machine

namespace Step

variable {fail : VmError → RunError} {c c' : Cursor} {m m' : Machine}
  {E : Machine × Except VmError Machine.Move}

theorem ofEffect_eq_next (h : Step.ofEffect fail c E = .next m' c') :
    ∃ mv, E = (m', .ok mv) ∧ mv.apply m'.config.maxCallDepth c = .ok (some c') := by
  obtain ⟨m, _ | mv⟩ := E
  · cases h
  · simp only [ofEffect] at h
    split at h <;> cases h
    exact ⟨mv, rfl, ‹_›⟩

theorem ofEffect_eq_done (h : Step.ofEffect fail c E = .done m') :
    ∃ mv, E = (m', .ok mv) ∧ mv.apply m'.config.maxCallDepth c = .ok none := by
  obtain ⟨m, _ | mv⟩ := E
  · cases h
  · simp only [ofEffect] at h
    split at h <;> cases h
    exact ⟨mv, rfl, ‹_›⟩

end Step

namespace Machine

variable {D : Nat} {c c' : Cursor} {mv : Move}

/-- A move ends the run only as a return with no caller. -/
theorem Move.apply_eq_none (h : mv.apply D c = .ok none) : mv = .ret ∧ c.frames = [] := by
  cases mv with
  | stay => cases h
  | jump d =>
    simp only [Move.apply] at h
    split_ifs at h
    cases h
  | call w =>
    simp only [Move.apply] at h
    split_ifs at h
    cases h
  | ret =>
    simp only [Move.apply] at h
    split at h
    · exact ⟨rfl, ‹_›⟩
    · cases h

end Machine

/-- Every place a run stands at, or will return to, lies within its word's code. -/
def Cursor.Fits (c : Cursor) : Prop :=
  c.pc ≤ c.word.code.length ∧ ∀ f ∈ c.frames, f.pc ≤ f.word.code.length

namespace Machine

variable {sys : Option (SysHandler Id)} {m m' : Machine} {c c' : Cursor} {D : Nat} {mv : Move}

/-- A move keeps the run within its words: a jump is checked against the code, a call enters
a word at its start, a return goes back to a saved place. -/
theorem Move.apply_fits (hc : c.Fits) (h : mv.apply D c = .ok (some c')) : c'.Fits := by
  obtain ⟨hpc, hfr⟩ := hc
  cases mv with
  | stay =>
    cases h
    exact ⟨hpc, hfr⟩
  | jump d =>
    simp only [Move.apply] at h
    split_ifs at h with hout
    cases h
    exact ⟨by simp only; omega, hfr⟩
  | call w =>
    simp only [Move.apply] at h
    split_ifs at h
    cases h
    refine ⟨Nat.zero_le _, ?_⟩
    simp only [List.mem_cons, forall_eq_or_imp]
    exact ⟨hpc, hfr⟩
  | ret =>
    simp only [Move.apply] at h
    split at h
    · cases h
    · rename_i f fs hframes
      cases h
      rw [hframes] at hfr
      exact ⟨hfr f List.mem_cons_self, fun g hg => hfr g (List.mem_cons_of_mem f hg)⟩

/-- **A step keeps the run within its words.** -/
theorem step_fits (hc : c.Fits) (h : Id.run (m.step sys c) = .next m' c') : c'.Fits := by
  rw [step_eq] at h
  split at h
  · obtain ⟨mv, hE, happly⟩ := Step.ofEffect_eq_next h
    cases hE
    exact Move.apply_fits hc happly
  · rename_i i hi
    split at h
    · obtain ⟨mv, -, happly⟩ := Step.ofEffect_eq_next h
      -- the place past the instruction is within the code
      refine Move.apply_fits
        (c := { c with pc := c.pc + 1 + i.operands.length, steps := c.steps + 1 }) ⟨?_, hc.2⟩ happly
      exact Code.fetch_bounds hi
    · cases h

/-- A step ends the run only at a return with no caller: a `RET`, or the end of the word. The
machine stays as it was. -/
theorem step_eq_done (h : Id.run (m.step sys c) = .done m') :
    m' = m ∧ c.frames = [] ∧
      (Code.fetch c.word.code c.pc = none ∨
        ∃ i, Code.fetch c.word.code c.pc = some i ∧ i.opcode = Op.ret.byte) := by
  rw [step_eq] at h
  split at h
  · obtain ⟨mv, hE, happly⟩ := Step.ofEffect_eq_done h
    cases hE
    exact ⟨rfl, (Move.apply_eq_none happly).2, .inl ‹_›⟩
  · rename_i i hi
    split at h
    · rename_i E hE
      obtain ⟨mv, rfl, happly⟩ := Step.ofEffect_eq_done h
      obtain ⟨rfl, hfr⟩ := Move.apply_eq_none happly
      obtain ⟨-, hmv⟩ := instructionEffect_ok hE
      rcases hmv with h | ⟨d, h, -⟩ | ⟨w, h, -⟩ | ⟨-, hop, rfl⟩
      · cases h
      · cases h
      · cases h
      · exact ⟨rfl, hfr, .inr ⟨i, hi, hop⟩⟩
    · cases h

/-- A step that goes on from the outermost word read a complete instruction there, and a jump
it took landed within the word. -/
theorem step_next_reads (h : Id.run (m.step sys c) = .next m' c') (hfr : c.frames = []) :
    ∃ i, Code.fetch c.word.code c.pc = some i ∧ i.truncated = false ∧
      ∀ m'' d, instructionEffect sys m c.steps i = .ok (m'', .ok (.jump d)) →
        0 ≤ ((c.pc + 1 + i.operands.length : Nat) : Int) + d ∧
          ((c.pc + 1 + i.operands.length : Nat) : Int) + d ≤ c.word.code.length := by
  rw [step_eq] at h
  split at h
  · -- at the end of the outermost word the run ends
    obtain ⟨mv, hE, happly⟩ := Step.ofEffect_eq_next h
    cases hE
    simp [Move.apply, hfr] at happly
  · rename_i i hi
    split at h
    · rename_i E hE
      obtain ⟨mv, rfl, happly⟩ := Step.ofEffect_eq_next h
      refine ⟨i, hi, (instructionEffect_ok hE).1, fun m'' d hj => ?_⟩
      rw [hj] at hE
      cases hE
      simp only [Move.apply] at happly
      split_ifs at happly with hout
      simp only [not_or, not_lt] at hout
      exact ⟨hout.1, hout.2⟩
    · cases h

end Machine

end StackLink
