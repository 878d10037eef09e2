import Mathlib
import StackLink.Proofs.Runs
import StackLink.Proofs.Footprint
import StackLink.Proofs.Relocation

/-!
# Runs stop within their step limit

A run is computed with fuel (`StackLink.Machine.runFor`); this file says what the machine
does when its step limit is positive, whatever the word and the table. The states a run
passes through are those that steps that go on lead to (`StackLink.Machine.Reaches`).

**A run under a step limit stops within it**
(`StackLink.Machine.exec_stops_within_step_limit`): it ends by a step taken from a state it
reaches, never for want of fuel; every state it reaches has counted at most the limit's
number of instructions; and at the limit the next fetch fails with `stepLimit` before the
instruction runs. The facts behind it:

* **a step that goes on either counts an instruction or returns from a word**
  (`StackLink.Machine.step_next_counts`): an instruction within the limit counts one and saves
  at most one caller, an implicit return at the end of a word counts none and drops a caller;
* so the pair of instructions still to count and callers saved falls in the lexicographic
  order at every step (`StackLink.Machine.step_progress`). This is why the run is total: no
  single number falls, because an implicit return counts nothing and a call saves a caller;
* twice the first plus the second falls too (`StackLink.Machine.step_budget`), and a run given
  more fuel than that ends by a step (`StackLink.Machine.runFor_ends`);
* the fetch at the limit fails before it runs anything (`StackLink.Machine.step_at_limit`).

A handler may do anything to the machine but change its configuration
(`StackLink.SysHandler.KeepsConfig`), which is all the step limit needs.
-/

namespace StackLink

/-- What a cursor can still do under a step limit: two for every instruction it may still
count, and one for every caller it has saved. -/
def Cursor.budget (limit : Nat) (c : Cursor) : Nat := 2 * (limit - c.steps) + c.frames.length

/-- A handler that never changes the machine's configuration. -/
def SysHandler.KeepsConfig (h : SysHandler Id) : Prop :=
  ∀ m id args m', (h m id args).machine? = some m' → m'.config = m.config

/-- What a step that ends the run hands back: the machine and the outcome. -/
def Step.result? : Step → Option (Machine × Except RunError Unit)
  | .next _ _ => none
  | .done m => some (m, .ok ())
  | .fail m e => some (m, .error e)

namespace Machine

/-- The states a run passes through from `(m, c)`: those that steps that go on lead to. -/
inductive Reaches (sys : Option (SysHandler Id)) : Machine → Cursor → Machine → Cursor → Prop
  | refl (m : Machine) (c : Cursor) : Reaches sys m c m c
  | step {m m₁ m₂ : Machine} {c c₁ c₂ : Cursor} :
      Id.run (m.step sys c) = .next m₁ c₁ → Reaches sys m₁ c₁ m₂ c₂ → Reaches sys m c m₂ c₂

variable {sys : Option (SysHandler Id)} {m m' : Machine} {c c' : Cursor}

/-- At the limit, the next fetch fails before the instruction runs, and leaves the machine as
it was. -/
theorem step_at_limit (hlim : 0 < m.config.maxSteps) (hc : c.steps = m.config.maxSteps.toNat)
    {i : Instruction} (hi : Code.fetch c.word.code c.pc = some i) :
    Id.run (m.step sys c) = .fail m (.exec ⟨c.word.name, c.pc, i.opcode, .stepLimit⟩) := by
  unfold step
  rw [hi]
  dsimp only
  rw [if_pos ⟨hlim, by omega⟩, Code.offset_of_fetch hi]
  rfl

/-- A step fails only at an instruction or by a handler's abort: never for want of fuel. -/
theorem step_fail_cases {e : RunError} (h : Id.run (m.step sys c) = .fail m' e) :
    (∃ x, e = .exec x) ∨ ∃ r, e = .abort r := by
  unfold step at h
  split at h
  · split at h <;> cases h
  · dsimp only at h
    -- the step limit, a truncated instruction and an unknown opcode fail at the instruction
    split at h
    · cases h; exact .inl ⟨_, rfl⟩
    split at h
    · cases h; exact .inl ⟨_, rfl⟩
    split at h
    · cases h; exact .inl ⟨_, rfl⟩
    · split at h
      · -- `SYS` with a handler: its refusal fails the instruction, its abort the run
        simp only [Id.run_bind] at h
        split at h
        · cases h
        · cases h; exact .inl ⟨_, rfl⟩
        · cases h; exact .inr ⟨_, rfl⟩
      · simp only [Id.run_pure] at h
        exact .inl (execute_fail h)
    · simp only [Id.run_pure] at h
      exact .inl (execute_fail h)

section KeepsConfig

variable (hsys : ∀ h, sys = some h → h.KeepsConfig)
include hsys

/-- **What a step that goes on does to the count**: it executes an instruction within the
limit, counting it and saving at most one caller, or returns at the end of a word, counting
nothing and dropping a caller. The configuration stays. -/
theorem step_next_counts (h : Id.run (m.step sys c) = .next m' c') :
    m'.config = m.config ∧
      ((c'.steps = c.steps + 1 ∧ (0 < m.config.maxSteps → c'.steps ≤ m.config.maxSteps.toNat) ∧
          c'.frames.length ≤ c.frames.length + 1) ∨
        (c'.steps = c.steps ∧ c'.frames.length + 1 = c.frames.length)) := by
  rcases step_next_cases h with ⟨-, rfl, f, fs, hfr, rfl⟩ |
    ⟨i, -, hlim, ⟨hdl, id, args, rfl, hr, rfl⟩ | ⟨op, hx⟩⟩
  · -- the end of a word: back to the caller
    exact ⟨rfl, .inr ⟨rfl, by simp [hfr]⟩⟩
  · -- `SYS` with a handler: the handler's machine, with its configuration
    have hm : (hdl m id args).machine? = some m' := by rw [hr]; rfl
    exact ⟨hsys hdl rfl m id args m' hm, .inl ⟨rfl, fun hpos => by simp; omega, by simp⟩⟩
  · -- any other instruction: its arm counts it and saves at most one caller
    obtain ⟨hcfg, hst, hfr⟩ := execute_next hx
    simp only at hst hfr
    exact ⟨hcfg, .inl ⟨hst, fun hpos => by omega, hfr⟩⟩

/-- Under a limit, **a step that goes on makes progress**: the instructions the run may still
count fall, or stay while the callers fall. It stays within the limit and keeps the
configuration. -/
theorem step_progress (hlim : 0 < m.config.maxSteps) (hc : c.steps ≤ m.config.maxSteps.toNat)
    (h : Id.run (m.step sys c) = .next m' c') :
    m'.config = m.config ∧ c'.steps ≤ m.config.maxSteps.toNat ∧
      Prod.Lex (· < ·) (· < ·) (m.config.maxSteps.toNat - c'.steps, c'.frames.length)
        (m.config.maxSteps.toNat - c.steps, c.frames.length) := by
  obtain ⟨hcfg, ⟨hst, hle, hfr⟩ | ⟨hst, hfr⟩⟩ := step_next_counts hsys h
  · -- an instruction: one fewer left to count
    have := hle hlim
    exact ⟨hcfg, this, Prod.Lex.left _ _ (by omega)⟩
  · -- an implicit return: as many left, one caller fewer
    refine ⟨hcfg, hst ▸ hc, ?_⟩
    rw [hst]
    exact Prod.Lex.right _ (by omega)

theorem step_budget (hlim : 0 < m.config.maxSteps) (hc : c.steps ≤ m.config.maxSteps.toNat)
    (h : Id.run (m.step sys c) = .next m' c') :
    c'.budget m.config.maxSteps.toNat < c.budget m.config.maxSteps.toNat := by
  obtain ⟨-, ⟨hst, hle, hfr⟩ | ⟨hst, hfr⟩⟩ := step_next_counts hsys h
  · have := hle hlim
    simp only [Cursor.budget]
    omega
  · simp only [Cursor.budget]
    omega

theorem Reaches.config (h : m.Reaches sys c m' c') : m'.config = m.config := by
  induction h with
  | refl => rfl
  | step hs _ ih => exact ih.trans (step_next_counts hsys hs).1

theorem Reaches.steps_le (hlim : 0 < m.config.maxSteps) (hc : c.steps ≤ m.config.maxSteps.toNat)
    (h : m.Reaches sys c m' c') : c'.steps ≤ m.config.maxSteps.toNat := by
  induction h with
  | refl => exact hc
  | step hs _ ih =>
    obtain ⟨hcfg, hc', -⟩ := step_progress hsys hlim hc hs
    rw [← hcfg]
    exact ih (hcfg ▸ hlim) (hcfg ▸ hc')

/-- **A run with more fuel than budget ends by a step**: the step that ends it is taken from
a state the run reaches, and what that step hands back is the run's result. -/
theorem runFor_ends (hlim : 0 < m.config.maxSteps) {n : Nat}
    (hc : c.steps ≤ m.config.maxSteps.toNat) (hn : c.budget m.config.maxSteps.toNat < n) :
    ∃ m₁ c₁, m.Reaches sys c m₁ c₁ ∧
      (Id.run (m₁.step sys c₁)).result? = some (Id.run (runFor sys n m c)) := by
  induction n generalizing m c with
  | zero => omega
  | succ n ih =>
    simp only [runFor, Id.run_bind]
    cases hs : Id.run (m.step sys c) with
    | next m' c' =>
      -- the budget falls by at least one, and the fuel by exactly one
      obtain ⟨hcfg, hc', -⟩ := step_progress hsys hlim hc hs
      have hb := step_budget hsys hlim hc hs
      obtain ⟨m₁, c₁, hr, hend⟩ :=
        ih (m := m') (c := c') (hcfg ▸ hlim) (hcfg ▸ hc') (by rw [hcfg]; omega)
      exact ⟨m₁, c₁, .step hs hr, hend⟩
    | done m' => exact ⟨m, c, .refl m c, by rw [hs]; rfl⟩
    | fail m' e => exact ⟨m, c, .refl m c, by rw [hs]; rfl⟩

/-- **A run under a step limit stops within it.** A run of any word on a machine whose step
limit `L` is positive, with no handler or one that keeps the configuration, ends: its result
is what a step from a state it reaches hands back, and never a want of fuel. Every state it
reaches has counted at most `L` instructions, and each step from one either counts one more
instruction or, counting none, returns from a word: the pair of instructions left and callers
saved falls in the lexicographic order. At a state that has counted `L`, the fetch of the next
instruction fails with `stepLimit` and leaves the machine as it was. -/
theorem exec_stops_within_step_limit (hlim : 0 < m.config.maxSteps) (w : Word) :
    (∃ m₁ c₁, m.Reaches sys ⟨w, 0, [], 0⟩ m₁ c₁ ∧
      (Id.run (m₁.step sys c₁)).result? = some (Id.run (m.exec sys w))) ∧
    (Id.run (m.exec sys w)).2 ≠ .error .outOfFuel ∧
    ∀ m₁ c₁, m.Reaches sys ⟨w, 0, [], 0⟩ m₁ c₁ →
      c₁.steps ≤ m.config.maxSteps.toNat ∧
      (∀ m₂ c₂, Id.run (m₁.step sys c₁) = .next m₂ c₂ →
        Prod.Lex (· < ·) (· < ·) (m.config.maxSteps.toNat - c₂.steps, c₂.frames.length)
          (m.config.maxSteps.toNat - c₁.steps, c₁.frames.length)) ∧
      (c₁.steps = m.config.maxSteps.toNat → ∀ i, Code.fetch c₁.word.code c₁.pc = some i →
        Id.run (m₁.step sys c₁) = .fail m₁ (.exec ⟨c₁.word.name, c₁.pc, i.opcode, .stepLimit⟩)) := by
  have hstart : (⟨w, 0, [], 0⟩ : Cursor).steps ≤ m.config.maxSteps.toNat := Nat.zero_le _
  have hfuel : (⟨w, 0, [], 0⟩ : Cursor).budget m.config.maxSteps.toNat < fuel m.config := by
    simp [Cursor.budget, fuel, hlim]
  obtain ⟨m₁, c₁, hr, hend⟩ : ∃ m₁ c₁, m.Reaches sys ⟨w, 0, [], 0⟩ m₁ c₁ ∧
      (Id.run (m₁.step sys c₁)).result? = some (Id.run (m.exec sys w)) :=
    runFor_ends hsys hlim hstart hfuel
  refine ⟨⟨m₁, c₁, hr, hend⟩, ?_, fun m₂ c₂ hr₂ => ?_⟩
  · -- the run's result is a step's, and no step runs out of fuel
    intro hout
    cases hs : Id.run (m₁.step sys c₁) with
    | next => rw [hs] at hend; cases hend
    | done m' =>
      rw [hs, Step.result?, Option.some.injEq] at hend
      rw [← hend] at hout
      cases hout
    | fail m' e =>
      rw [hs, Step.result?, Option.some.injEq] at hend
      rw [← hend] at hout
      cases hout
      rcases step_fail_cases hs with ⟨x, hx⟩ | ⟨r, hx⟩ <;> cases hx
  · have hcfg := hr₂.config hsys
    have hc₂ := hr₂.steps_le hsys hlim hstart
    refine ⟨hc₂, fun m₃ c₃ hs => ?_, fun hat i hi => step_at_limit (hcfg ▸ hlim) (hcfg ▸ hat) hi⟩
    rw [← hcfg]
    exact (step_progress hsys (hcfg ▸ hlim) (hcfg ▸ hc₂) hs).2.2

end KeepsConfig

/-- A word that jumps back to itself forever, run with a limit of three steps and no handler:
the run stops within the limit. -/
theorem endless_loop_stops_at_limit :
    let m := Machine.new { MachineConfig.default with memorySize := 4, maxSteps := 3 }
    let w : Word := ⟨-1, [], [0x40, 0xFD, 0xFF]⟩
    (∀ h, (none : Option (SysHandler Id)) = some h → h.KeepsConfig) ∧ 0 < m.config.maxSteps ∧
    ((∃ m₁ c₁, m.Reaches none ⟨w, 0, [], 0⟩ m₁ c₁ ∧
      (Id.run (m₁.step none c₁)).result? = some (Id.run (m.exec none w))) ∧
    (Id.run (m.exec none w)).2 ≠ .error .outOfFuel ∧
    ∀ m₁ c₁, m.Reaches none ⟨w, 0, [], 0⟩ m₁ c₁ →
      c₁.steps ≤ m.config.maxSteps.toNat ∧
      (∀ m₂ c₂, Id.run (m₁.step none c₁) = .next m₂ c₂ →
        Prod.Lex (· < ·) (· < ·) (m.config.maxSteps.toNat - c₂.steps, c₂.frames.length)
          (m.config.maxSteps.toNat - c₁.steps, c₁.frames.length)) ∧
      (c₁.steps = m.config.maxSteps.toNat → ∀ i, Code.fetch c₁.word.code c₁.pc = some i →
        Id.run (m₁.step none c₁) = .fail m₁ (.exec ⟨c₁.word.name, c₁.pc, i.opcode, .stepLimit⟩))) :=
  by
  intro m w
  have hnone : ∀ h, (none : Option (SysHandler Id)) = some h → h.KeepsConfig := fun _ h => by
    cases h
  exact ⟨hnone, by decide, exec_stops_within_step_limit hnone (by decide) w⟩

end Machine

end StackLink
