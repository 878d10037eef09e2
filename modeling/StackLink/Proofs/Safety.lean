import Mathlib
import StackLink.Proofs.StepLimit
import StackLink.Proofs.ShiftedRuns

/-!
# Runs stay in bounds

The machine keeps its stacks as lists and its code as byte lists, so no access can fall
outside them; what can go wrong is a run that outgrows its configuration. This file shows
that no run does. Its state is **safe** (`StackLink.Machine.Safe`) when both stacks lie within
the configured depth (`StackLink.Machine.StacksFit`), the saved callers within the call depth,
and the place the run stands and every place it will return to inside their words
(`StackLink.Cursor.InBounds`).

**A run stays in bounds** (`StackLink.Machine.run_stays_in_bounds`): on any machine the host
can reach (`StackLink.Machine.Reachable`), with no handler or one that only pushes, pops and
writes memory (`StackLink.SysHandler.UsesStacksAndMemory`), every state a run reaches is safe,
every instruction read there lies inside its word (`StackLink.Code.fetch_bounds`), and the
machine the run ends on still has its stacks within the depth. The proof is a step lemma and
its induction:

* each primitive has an equation (`StackLink.Machine.push_eq_ok` and its siblings): a push
  checks the depth first, a pop takes a cell that is there, a write leaves the stacks;
* so whatever an instruction leads to, the stacks still fit
  (`StackLink.Machine.execute_stacksFit`), and a call saves a caller only below the call depth
  (`StackLink.Machine.execute_frames`);
* a step that goes on keeps the run safe (`StackLink.Machine.Safe.step`): past a complete
  instruction the run stands inside its word, a taken jump is checked to land inside it, a call
  saves the place after it, and a return resumes a saved place;
* hence every state a run reaches is safe (`StackLink.Machine.Reaches.safe`), and a machine
  the host reaches has its stacks within the depth (`StackLink.Machine.Reachable.stacksFit`).
-/

namespace StackLink

/-- What is read at `pc` lies inside the code, operands included. -/
theorem Code.fetch_bounds {code : List UInt8} {pc : Nat} {i : Instruction}
    (h : Code.fetch code pc = some i) : pc + 1 + i.operands.length ≤ code.length := by
  unfold Code.fetch at h
  split at h
  · cases h
  · rename_i b rest hd
    cases h
    -- the bytes from `pc` on are the opcode and the rest, of which the operands are a prefix
    have hlen := congrArg List.length hd
    simp only [List.length_drop, List.length_cons] at hlen
    simp only [List.length_take]
    omega

namespace Machine

variable {m m' : Machine} {v : Int32}

theorem push_eq_ok : m.push v = .ok m' ↔
    m.data.length < m.config.stackDepth ∧ m' = { m with data := v :: m.data } := by
  unfold push
  split <;> simp_all [eq_comm]

theorem rpush_eq_ok : m.rpush v = .ok m' ↔
    m.ret.length < m.config.stackDepth ∧ m' = { m with ret := v :: m.ret } := by
  unfold rpush
  split <;> simp_all [eq_comm]

theorem pop_eq_ok :
    m.pop = .ok (v, m') ↔ ∃ rest, m.data = v :: rest ∧ m' = { m with data := rest } := by
  unfold pop
  split <;> simp_all [eq_comm]

theorem writeMemory_eq_ok {a : UInt32} {d : List UInt8} (h : m.writeMemory a d = .ok m') :
    m' = { m with mem := Memory.write m.mem a.toNat d } := by
  unfold writeMemory at h
  cases hs : m.span a d.length with
  | error e => simp [hs] at h
  | ok u => simp [hs] at h; exact h.symm

/-- Both stacks within the configured depth. -/
structure StacksFit (m : Machine) : Prop where
  data : m.data.length ≤ m.config.stackDepth
  ret : m.ret.length ≤ m.config.stackDepth

theorem stacksFit_iff : m.StacksFit ↔
    m.data.length ≤ m.config.stackDepth ∧ m.ret.length ≤ m.config.stackDepth :=
  ⟨fun h => ⟨h.data, h.ret⟩, fun ⟨h₁, h₂⟩ => ⟨h₁, h₂⟩⟩

theorem execute_stacksFit (h : m.StacksFit) (c : Cursor) (i : Instruction) (op : Op) :
    (m.execute c i op).machine.StacksFit := by
  unfold execute
  dsimp only
  split <;> (repeat' split) <;> simp only [Step.machine, writeMemory32] at * <;>
    grind [stacksFit_iff, push_eq_ok, rpush_eq_ok, → writeMemory_eq_ok]

/-- An instruction that goes on saves a caller only below the call depth. -/
theorem execute_frames {c c' : Cursor} {i : Instruction} {op : Op}
    (h : m.execute c i op = .next m' c') :
    c'.frames.length ≤ c.frames.length ∨
      (c'.frames.length = c.frames.length + 1 ∧ c.frames.length < m.config.maxCallDepth) := by
  unfold execute at h
  dsimp only at h
  split at h <;> (repeat' split at h) <;> (try cases h) <;> grind

/-- What a handler may do to the machine it is handed: push and pop data cells and write
memory, any number of times. Reading leaves the machine as it is. -/
inductive HostOps : Machine → Machine → Prop
  | refl (m : Machine) : HostOps m m
  | push {m m₁ m₂ : Machine} {v : Int32} : m.push v = .ok m₁ → HostOps m₁ m₂ → HostOps m m₂
  | pop {m m₁ m₂ : Machine} {v : Int32} : m.pop = .ok (v, m₁) → HostOps m₁ m₂ → HostOps m m₂
  | write {m m₁ m₂ : Machine} {a : UInt32} {d : List UInt8} :
      m.writeMemory a d = .ok m₁ → HostOps m₁ m₂ → HostOps m m₂

theorem HostOps.config (h : m.HostOps m') : m'.config = m.config := by
  induction h with
  | refl => rfl
  | push hp _ ih => rw [ih, (push_eq_ok.mp hp).2]
  | pop hp _ ih => obtain ⟨_, _, rfl⟩ := pop_eq_ok.mp hp; exact ih
  | write hw _ ih => rw [ih, writeMemory_eq_ok hw]

theorem HostOps.stacksFit (h : m.HostOps m') (hm : m.StacksFit) : m'.StacksFit := by
  induction h with
  | refl => exact hm
  | push hp _ ih =>
    obtain ⟨hlt, rfl⟩ := push_eq_ok.mp hp
    exact ih ⟨by simp; omega, hm.ret⟩
  | pop hp _ ih =>
    obtain ⟨rest, hd, rfl⟩ := pop_eq_ok.mp hp
    exact ih ⟨by have := hm.data; simp [hd] at this; simp; omega, hm.ret⟩
  | write hw _ ih =>
    rw [writeMemory_eq_ok hw] at ih
    exact ih ⟨hm.data, hm.ret⟩

end Machine

/-- A handler that only pushes, pops and writes memory on the machine it is handed. -/
def SysHandler.UsesStacksAndMemory (h : SysHandler Id) : Prop :=
  ∀ m id args m', (h m id args).machine? = some m' → m.HostOps m'

theorem SysHandler.UsesStacksAndMemory.keepsConfig {h : SysHandler Id}
    (hu : h.UsesStacksAndMemory) : h.KeepsConfig :=
  fun m id args m' hm => (hu m id args m' hm).config

/-- Where a run stands safely under the call depth `d`: within it, inside its word, with every
saved place inside its word. -/
structure Cursor.InBounds (d : Nat) (c : Cursor) : Prop where
  frames : c.frames.length ≤ d
  pc : c.pc ≤ c.word.code.length
  saved : ∀ f ∈ c.frames, f.pc ≤ f.word.code.length

namespace Cursor

variable {d : Nat} {c : Cursor}

theorem InBounds.ret (h : c.InBounds d) {f : CallFrame} {fs : List CallFrame}
    (hf : c.frames = f :: fs) : InBounds d { c with word := f.word, pc := f.pc, frames := fs } := by
  have hsaved := h.saved
  have hframes := h.frames
  rw [hf] at hsaved hframes
  exact ⟨by simp at hframes ⊢; omega, hsaved f List.mem_cons_self,
    fun g hg => hsaved g (List.mem_cons_of_mem f hg)⟩

theorem InBounds.next (h : c.InBounds d) {p : Nat} (hp : p ≤ c.word.code.length) (s : Nat) :
    InBounds d { c with pc := p, steps := s } :=
  ⟨h.frames, hp, h.saved⟩

theorem InBounds.call (h : c.InBounds d) (hd : c.frames.length < d) (w : Word) :
    InBounds d { c with word := w, pc := 0, frames := ⟨c.word, c.pc⟩ :: c.frames } := by
  refine ⟨by simp; omega, Nat.zero_le _, fun f hf => ?_⟩
  rcases List.mem_cons.mp hf with rfl | hf
  · exact h.pc
  · exact h.saved f hf

end Cursor

namespace Machine

variable {m m' : Machine}

theorem execute_inBounds {c c' : Cursor} {i : Instruction} {op : Op}
    (hc : c.InBounds m.config.maxCallDepth) (h : m.execute c i op = .next m' c') :
    c'.InBounds m'.config.maxCallDepth := by
  rw [(execute_next h).1]
  rcases execute_next_cursor h with rfl | ⟨t, -, -, h0, hle, rfl⟩ | ⟨w, -, rfl⟩ | ⟨f, fs, hf, rfl⟩
  · exact hc
  · exact hc.next (by omega) _
  · rcases execute_frames h with hle | ⟨-, hlt⟩
    · simp at hle
    · exact hc.call hlt w
  · exact hc.ret hf

/-- The safety invariant of a run: both stacks within their depth, and the place it stands and
every place it will return to inside their words, under the call depth. -/
structure Safe (m : Machine) (c : Cursor) : Prop where
  fit : m.StacksFit
  cursor : c.InBounds m.config.maxCallDepth

section Handler

variable {sys : Option (SysHandler Id)} {c c' : Cursor}
  (hsys : ∀ h, sys = some h → h.UsesStacksAndMemory)
include hsys

/-- Whatever a step leads to, the machine's stacks still fit. -/
theorem step_stacksFit (hm : m.StacksFit) (c : Cursor) :
    (Id.run (m.step sys c)).machine.StacksFit := by
  unfold step
  split
  · -- the end of a word
    split <;> exact hm
  · dsimp only
    split
    · exact hm
    split
    · exact hm
    split
    · exact hm
    · split
      · -- a system call: the handler's machine, or the machine's own refusal
        rename_i h id args _
        simp only [Id.run_bind]
        cases hr : Id.run (h m id args) with
        | ok m' =>
          have hm' : (h m id args).machine? = some m' := by
            rw [show h m id args = .ok m' from hr]; rfl
          exact (hsys h rfl m id args m' hm').stacksFit hm
        | error m' e =>
          have hm' : (h m id args).machine? = some m' := by
            rw [show h m id args = .error m' e from hr]; rfl
          exact (hsys h rfl m id args m' hm').stacksFit hm
        | abort r => exact hm
      · exact execute_stacksFit hm _ _ .sys
    · exact execute_stacksFit hm _ _ _

/-- A step that goes on keeps the run's place in bounds. -/
theorem step_inBounds (hc : c.InBounds m.config.maxCallDepth)
    (h : Id.run (m.step sys c) = .next m' c') : c'.InBounds m'.config.maxCallDepth := by
  rcases step_next_cases h with ⟨-, rfl, f, fs, hfr, rfl⟩ |
    ⟨i, hi, -, ⟨hdl, id, args, rfl, hr, rfl⟩ | ⟨op, hx⟩⟩
  · -- the end of a word: back to the caller
    exact hc.ret hfr
  · -- a handler keeps the configuration, and the run stands past the instruction
    have hcfg := (hsys hdl rfl m id args m' (by rw [hr]; rfl)).config
    rw [hcfg]
    exact hc.next (Code.fetch_bounds hi) _
  · exact execute_inBounds (hc.next (Code.fetch_bounds hi) _) hx

theorem Safe.step (h : m.Safe c) (hs : Id.run (m.step sys c) = .next m' c') : m'.Safe c' := by
  have hm := step_stacksFit hsys h.fit c
  rw [hs] at hm
  exact ⟨hm, step_inBounds hsys h.cursor hs⟩

theorem Reaches.safe (hr : m.Reaches sys c m' c') (h : m.Safe c) : m'.Safe c' := by
  induction hr with
  | refl => exact h
  | step hs _ ih => exact ih (h.step hsys hs)

theorem runFor_stacksFit (hm : m.StacksFit) (n : Nat) (c : Cursor) :
    (Id.run (runFor sys n m c)).1.StacksFit := by
  induction n generalizing m c with
  | zero => exact hm
  | succ n ih =>
    simp only [runFor, Id.run_bind]
    have hs := step_stacksFit hsys hm c
    generalize Id.run (m.step sys c) = s at hs
    cases s with
    | next m' c' => exact ih hs c'
    | done m' => exact hs
    | fail m' e => exact hs

end Handler

theorem registerWord_eq_ok {name code : List UInt8} {k : Nat}
    (h : m.registerWord name code = .ok (m', k)) :
    m' = { m with words := m.words.push ⟨m.words.size, name, code⟩ } := by
  unfold registerWord at h
  split at h
  · cases h
  split at h
  · cases h
  · cases h; rfl

/-- The machines a host reaches through the machine's interface: from a fresh machine, by
registering words, running them and resetting, and by pushing, popping and writing memory
itself. -/
inductive Reachable (sys : Option (SysHandler Id)) : Machine → Prop
  | new (cfg : MachineConfig) : Reachable sys (Machine.new cfg)
  | register {m m' : Machine} {name code : List UInt8} {k : Nat} :
      Reachable sys m → m.registerWord name code = .ok (m', k) → Reachable sys m'
  | exec {m : Machine} (w : Word) : Reachable sys m → Reachable sys (Id.run (m.exec sys w)).1
  | reset {m : Machine} : Reachable sys m → Reachable sys m.reset
  | host {m m' : Machine} : Reachable sys m → m.HostOps m' → Reachable sys m'

theorem Reachable.stacksFit {sys : Option (SysHandler Id)}
    (hsys : ∀ h, sys = some h → h.UsesStacksAndMemory) (h : m.Reachable sys) : m.StacksFit := by
  induction h with
  | new cfg => exact ⟨Nat.zero_le _, Nat.zero_le _⟩
  | register _ hr ih => rw [registerWord_eq_ok hr]; exact ⟨ih.data, ih.ret⟩
  | exec w _ ih => exact runFor_stacksFit hsys ih _ _
  | reset _ ih => exact ⟨Nat.zero_le _, Nat.zero_le _⟩
  | host _ ho ih => exact ho.stacksFit ih

/-- **A run stays in bounds.** Run any word on a machine the host has reached, with no handler
or one that only pushes, pops and writes memory. At every state the run reaches, both stacks
lie within the configured depth, the saved callers within the call depth, and the place the
run stands and every place it will return to inside their words; an instruction read there
lies inside its word, operands included. When the run ends, the stacks still lie within the
depth. So every stack cell an instruction reads or writes, below the depth, and every code
byte it reads, inside the word, exists. -/
theorem run_stays_in_bounds {sys : Option (SysHandler Id)}
    (hsys : ∀ h, sys = some h → h.UsesStacksAndMemory) (hm : m.Reachable sys) (w : Word) :
    (∀ m' c', m.Reaches sys ⟨w, 0, [], 0⟩ m' c' →
      m'.data.length ≤ m.config.stackDepth ∧ m'.ret.length ≤ m.config.stackDepth ∧
      c'.frames.length ≤ m.config.maxCallDepth ∧ (∀ f ∈ c'.frames, f.pc ≤ f.word.code.length) ∧
      c'.pc ≤ c'.word.code.length ∧
      ∀ i, Code.fetch c'.word.code c'.pc = some i →
        c'.pc + 1 + i.operands.length ≤ c'.word.code.length) ∧
    (Id.run (m.exec sys w)).1.StacksFit := by
  have hfit := hm.stacksFit hsys
  refine ⟨fun m' c' hr => ?_, runFor_stacksFit hsys hfit _ _⟩
  have hstart : m.Safe ⟨w, 0, [], 0⟩ := ⟨hfit, ⟨by simp, Nat.zero_le _, by simp⟩⟩
  have hsafe := hr.safe hsys hstart
  have hcfg := hr.config fun h hh => (hsys h hh).keepsConfig
  rw [← hcfg]
  exact ⟨hsafe.fit.data, hsafe.fit.ret, hsafe.cursor.frames, hsafe.cursor.saved, hsafe.cursor.pc,
    fun i hi => Code.fetch_bounds hi⟩

/-- A fresh machine running `LIT_U8 5; DUP; TOR` with no handler stays in bounds. -/
theorem fresh_run_stays_in_bounds :
    let m := Machine.new { MachineConfig.default with memorySize := 4 }
    let w : Word := ⟨-1, [], [0x76, 5, 0x01, 0x30]⟩
    (∀ h, (none : Option (SysHandler Id)) = some h → h.UsesStacksAndMemory) ∧ m.Reachable none ∧
    ((∀ m' c', m.Reaches none ⟨w, 0, [], 0⟩ m' c' →
      m'.data.length ≤ m.config.stackDepth ∧ m'.ret.length ≤ m.config.stackDepth ∧
      c'.frames.length ≤ m.config.maxCallDepth ∧ (∀ f ∈ c'.frames, f.pc ≤ f.word.code.length) ∧
      c'.pc ≤ c'.word.code.length ∧
      ∀ i, Code.fetch c'.word.code c'.pc = some i →
        c'.pc + 1 + i.operands.length ≤ c'.word.code.length) ∧
    (Id.run (m.exec none w)).1.StacksFit) := by
  intro m w
  have hnone : ∀ h, (none : Option (SysHandler Id)) = some h → h.UsesStacksAndMemory :=
    fun _ h => by cases h
  exact ⟨hnone, .new _, run_stays_in_bounds hnone (.new _) w⟩

end Machine

end StackLink
