import Mathlib
import StackLink.Machine.Run

/-!
# One step and whole runs

A run is computed by `StackLink.Machine.runFor`, which takes at most a given number of
steps and gives up with `outOfFuel` after them. This file says what one step can do and how a
run can end.

* **What a step that goes on can do** (`StackLink.Machine.step_next_cases`): return at the end
  of a word to the saved caller, or, within the limit, carry out one complete instruction,
  keeping the configuration (`StackLink.Machine.execute_next`).
* A run with no handler, or a handler that never aborts (`StackLink.SysHandler.NeverAborts`),
  ends only by finishing, by the failure of one instruction, or by running out of fuel
  (`StackLink.Machine.exec_error_of_neverAborts`): a handler may refuse a call, which fails
  that instruction, but it always hands the run back.

That a run under a step limit never runs out of fuel is shown once, in the step-limit file.
-/

namespace StackLink

/-- A handler that never aborts a run: it may change the machine or refuse the call, and
always hands control back. -/
def SysHandler.NeverAborts (h : SysHandler Id) : Prop := ∀ m id args r, h m id args ≠ .abort r

namespace Machine

variable {m m' : Machine} {v : Int32} {c c' : Cursor} {e : RunError} {w : Word}
  {sys : Option (SysHandler Id)}

/-! ### The configuration is never written -/

theorem config_of_push (h : m.push v = .ok m') : m'.config = m.config := by
  unfold push at h
  split at h
  · cases h
  · cases h; rfl

theorem config_of_rpush (h : m.rpush v = .ok m') : m'.config = m.config := by
  unfold rpush at h
  split at h
  · cases h
  · cases h; rfl

theorem config_of_writeMemory {a : UInt32} {d : List UInt8} (h : m.writeMemory a d = .ok m') :
    m'.config = m.config := by
  unfold writeMemory at h
  cases hs : m.span a d.length with
  | error e => simp [hs] at h
  | ok u => simp [hs] at h; cases h; rfl

/-! ### One step -/

/-- An instruction that goes on keeps the configuration and the count, and saves at most one
caller. -/
theorem execute_next {i : Instruction} {op : Op} (h : m.execute c i op = .next m' c') :
    m'.config = m.config ∧ c'.steps = c.steps ∧ c'.frames.length ≤ c.frames.length + 1 := by
  unfold execute at h
  dsimp only at h
  -- each branch that goes on changes only the stacks or memory, and `CALL` pushes one frame
  split at h <;> (repeat' split at h) <;> (try cases h) <;>
    grind [→ config_of_push, → config_of_rpush, → config_of_writeMemory, writeMemory32]

/-- An instruction fails only with a failure of its own. -/
theorem execute_fail {i : Instruction} {op : Op} (h : m.execute c i op = .fail m' e) :
    ∃ x, e = .exec x := by
  unfold execute at h
  dsimp only at h
  split at h <;> (repeat' split at h) <;> cases h <;> exact ⟨_, rfl⟩

/-- With no handler or one that never aborts, a step fails only at an instruction. -/
theorem step_fail_of_neverAborts (hsys : ∀ h, sys = some h → h.NeverAborts)
    (h : m.step (M := Id) sys c = .fail m' e) : ∃ x, e = .exec x := by
  unfold step at h
  split at h
  · split at h <;> cases h
  · dsimp only at h
    split at h
    · cases h; exact ⟨_, rfl⟩
    split at h
    · cases h; exact ⟨_, rfl⟩
    split at h
    · cases h; exact ⟨_, rfl⟩
    · split at h
      · -- `SYS` with a handler: it goes on, refuses the call, or would abort
        rename_i hdl id args _
        simp only [bind] at h
        split at h
        · cases h
        · cases h; exact ⟨_, rfl⟩
        · rename_i r hr
          exact absurd hr (hsys hdl rfl m id args r)
      · exact execute_fail h
    · exact execute_fail h

/-- **What a step that goes on can do**: return at the end of a word to the saved caller, or,
within the limit, take a complete instruction, which a handler's `SYS` carries out by handing
back a machine and every other instruction by its arm, with the run moved past it and the
instruction counted. -/
theorem step_next_cases (h : Id.run (m.step sys c) = .next m' c') :
    (Code.fetch c.word.code c.pc = none ∧ m' = m ∧
      ∃ f fs, c.frames = f :: fs ∧ c' = { c with word := f.word, pc := f.pc, frames := fs }) ∨
    ∃ i, Code.fetch c.word.code c.pc = some i ∧
      (m.config.maxSteps ≤ 0 ∨ ((c.steps + 1 : Nat) : Int) ≤ m.config.maxSteps) ∧
      ((∃ hdl id args, sys = some hdl ∧ hdl m id args = .ok m' ∧
          c' = { c with pc := c.pc + 1 + i.operands.length, steps := c.steps + 1 }) ∨
        ∃ op, m.execute { c with pc := c.pc + 1 + i.operands.length, steps := c.steps + 1 } i op =
          .next m' c') := by
  unfold step at h
  split at h
  · -- the end of a word
    rename_i hi
    split at h
    · cases h
    · rename_i f fs hfr
      cases h
      exact .inl ⟨hi, rfl, f, fs, hfr, rfl⟩
  · rename_i i hi
    dsimp only at h
    split at h
    · cases h
    rename_i hgo
    have hlim : m.config.maxSteps ≤ 0 ∨ ((c.steps + 1 : Nat) : Int) ≤ m.config.maxSteps := by
      omega
    split at h
    · cases h
    split at h
    · cases h
    · split at h
      · -- `SYS` with a handler that hands back a machine
        rename_i hdl id args _
        simp only [Id.run_bind] at h
        split at h
        · rename_i hr
          cases h
          exact .inr ⟨i, hi, hlim, .inl ⟨hdl, id, args, rfl, hr, rfl⟩⟩
        · cases h
        · cases h
      · exact .inr ⟨i, hi, hlim, .inr ⟨.sys, h⟩⟩
    · exact .inr ⟨i, hi, hlim, .inr ⟨_, h⟩⟩

/-! ### Whole runs -/

/-- A run with no handler or one that never aborts ends by finishing, by an instruction's
failure, or by running out of fuel. -/
theorem runFor_error_of_neverAborts (hsys : ∀ h, sys = some h → h.NeverAborts) {n : Nat}
    (h : (runFor (M := Id) sys n m c).2 = .error e) : (∃ x, e = .exec x) ∨ e = .outOfFuel := by
  induction n generalizing m c with
  | zero => cases h; exact .inr rfl
  | succ n ih =>
    simp only [runFor] at h
    cases hs : m.step (M := Id) sys c with
    | next m' c' => rw [hs] at h; exact ih h
    | done m' => rw [hs] at h; cases h
    | fail m' e' => rw [hs] at h; cases h; exact .inl (step_fail_of_neverAborts hsys hs)

/-- A run of a word with no handler or one that never aborts ends by finishing, by an
instruction's failure, or by running out of fuel. -/
theorem exec_error_of_neverAborts (hsys : ∀ h, sys = some h → h.NeverAborts)
    (h : (m.exec (M := Id) sys w).2 = .error e) : (∃ x, e = .exec x) ∨ e = .outOfFuel :=
  runFor_error_of_neverAborts hsys h

end Machine

end StackLink
