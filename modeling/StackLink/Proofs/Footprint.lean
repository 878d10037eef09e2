import Mathlib
import StackLink.Machine.Run

/-!
# What a run may touch

An instruction works on the stacks and on the contents of memory. It never changes the
configuration, the word table or the size of memory. Two machines that differ only in what
an instruction may touch are *alike* (`StackLink.Machine.Alike`).

* **Every instruction leaves a machine alike the one it found**
  (`StackLink.Machine.execute_alike`), whatever it led to: the next instruction, the end of
  the run or a failure.
* A system call handler is *confined* when it does the same (`StackLink.SysHandler.Confined`).
  This is what a handler is for: it works on the stacks and memory of the machine it is
  handed.
* So, with no handler or a confined one, a step and a whole run end on a machine alike the
  one they started from (`StackLink.Machine.step_alike`, `StackLink.Machine.runFor_alike`).
  In particular a run never adds or removes a word.
-/

namespace StackLink

/-- The machine a step leaves, whatever the step led to. -/
def Step.machine : Step → Machine
  | .next m _ => m
  | .done m => m
  | .fail m _ => m

namespace Machine

/-- `m'` differs from `m` at most in its stacks and in the contents of its memory. -/
structure Alike (m m' : Machine) : Prop where
  config : m'.config = m.config
  words : m'.words = m.words
  memSize : m'.mem.size = m.mem.size

variable {m m' m'' : Machine} {v : Int32}

theorem alike_iff : m.Alike m' ↔
    m'.config = m.config ∧ m'.words = m.words ∧ m'.mem.size = m.mem.size :=
  ⟨fun h => ⟨h.config, h.words, h.memSize⟩, fun ⟨h₁, h₂, h₃⟩ => ⟨h₁, h₂, h₃⟩⟩

theorem Alike.refl (m : Machine) : m.Alike m := ⟨rfl, rfl, rfl⟩

theorem Alike.trans (h : m.Alike m') (h' : m'.Alike m'') : m.Alike m'' :=
  ⟨h'.config.trans h.config, h'.words.trans h.words, h'.memSize.trans h.memSize⟩

/-! ### The primitive operations -/

theorem alike_of_push (h : m.push v = .ok m') : m.Alike m' := by
  unfold push at h
  split at h
  · cases h
  · cases h; exact ⟨rfl, rfl, rfl⟩

theorem alike_of_rpush (h : m.rpush v = .ok m') : m.Alike m' := by
  unfold rpush at h
  split at h
  · cases h
  · cases h; exact ⟨rfl, rfl, rfl⟩

/-- Writing bytes into memory never changes its size. -/
@[simp]
theorem size_write (mem : Array UInt8) (pos : Nat) (bs : List UInt8) :
    (Memory.write mem pos bs).size = mem.size := by
  induction bs generalizing mem pos with
  | nil => rfl
  | cons b bs ih => simp [Memory.write, ih]

theorem alike_of_writeMemory {a : UInt32} {d : List UInt8} (h : m.writeMemory a d = .ok m') :
    m.Alike m' := by
  unfold writeMemory at h
  cases hs : m.span a d.length with
  | error e => simp [hs] at h
  | ok u =>
    simp [hs] at h
    cases h
    exact ⟨rfl, rfl, size_write _ _ _⟩

/-! ### One instruction, one step, one run -/

/-- **An instruction touches only the stacks and memory**, whatever it leads to. -/
theorem execute_alike (c : Cursor) (i : Instruction) (op : Op) :
    m.Alike (m.execute c i op).machine := by
  unfold execute
  dsimp only
  -- every branch keeps `m`, rewrites its stacks, or goes through `push`, `rpush` or a write
  split <;> (repeat' split) <;> simp only [Step.machine, writeMemory32] at * <;>
    grind [alike_iff, → alike_of_push, → alike_of_rpush, → alike_of_writeMemory]

end Machine

/-- The machine a handler hands back, if it did not abort. -/
def SysResult.machine? : SysResult → Option Machine
  | .ok m => some m
  | .error m _ => some m
  | .abort _ => none

/-- A handler that keeps to the stacks and memory: every machine it hands back is alike the
one it was given. -/
def SysHandler.Confined (h : SysHandler Id) : Prop :=
  ∀ m id args m', (h m id args).machine? = some m' → m.Alike m'

namespace Machine

variable {sys : Option (SysHandler Id)} {m : Machine}

/-- With no handler or a confined one, **a step touches only the stacks and memory**. -/
theorem step_alike (hsys : ∀ h, sys = some h → h.Confined) (c : Cursor) :
    m.Alike (Id.run (m.step sys c)).machine := by
  unfold step
  split
  · -- the end of a word
    split <;> exact Alike.refl m
  · dsimp only
    split
    · exact Alike.refl m
    split
    · exact Alike.refl m
    split
    · exact Alike.refl m
    · -- a system call: the handler's machine, or the machine's own refusal
      split
      · rename_i h id args _
        simp only [Id.run_bind]
        cases hr : Id.run (h m id args) with
        | ok m' => exact hsys h rfl m id args m' (by rw [show h m id args = .ok m' from hr]; rfl)
        | error m' e =>
          exact hsys h rfl m id args m' (by rw [show h m id args = .error m' e from hr]; rfl)
        | abort r => exact Alike.refl m
      · exact execute_alike (m := m) _ _ .sys
    · exact execute_alike (m := m) _ _ _

/-- With no handler or a confined one, **a run touches only the stacks and memory**. -/
theorem runFor_alike (hsys : ∀ h, sys = some h → h.Confined) (n : Nat) (c : Cursor) :
    m.Alike (Id.run (runFor sys n m c)).1 := by
  induction n generalizing m c with
  | zero => exact Alike.refl m
  | succ n ih =>
    simp only [runFor, Id.run_bind]
    have hs := step_alike (m := m) hsys c
    generalize Id.run (m.step sys c) = s at hs
    cases s with
    | next m' c' => exact hs.trans (ih (m := m') c')
    | done m' => exact hs
    | fail m' e => exact hs

theorem exec_alike (hsys : ∀ h, sys = some h → h.Confined) (w : Word) :
    m.Alike (Id.run (m.exec sys w)).1 :=
  runFor_alike hsys _ _

end Machine

end StackLink
