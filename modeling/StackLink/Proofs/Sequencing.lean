import Mathlib
import StackLink.Proofs.Moves
import StackLink.Proofs.StepLimit

/-!
# Code in sequence

Running the code `a ++ b` from a machine is running `a`, then running `b` from the machine `a`
left, when `a` finishes by running off its end and `b` keeps its jumps within itself. And a
call is a procedure call: running `[CALL i] ++ b` is running word `i` to its end, then `b`.
So several bare executions in a row act like one execution of their concatenation.

Both rest on one picture: a run of some code seen inside a run of longer code. The longer run
stands at a related place (`StackLink.Cursor.Within`, `StackLink.Cursor.Under`) and, on the same
machine, takes the related step:

* code lying `k` bytes into a longer word is read there as it is on its own, `k` bytes on
  (`StackLink.Code.fetch_append_right`); each step of its run is a step of the longer run, with
  a failure in the code itself standing `k` bytes further on
  (`StackLink.Machine.step_within`). A jump that stays within the code stays within the word;
  one that leaves it could land anywhere in the longer word, which is why `b`'s jumps are
  required to stay within `b`;
* a prefix `a` is read as it is on its own wherever its instructions are complete
  (`StackLink.Code.fetch_append_left`), so the run of `a ++ b` follows the run of `a` until `a`
  runs off its end, which is then the start of `b`;
* a run beneath one more saved caller (`StackLink.Machine.step_under`) takes the same steps,
  except that its last return goes back to that caller instead of ending the run. One more
  caller also counts against the call depth, which is why the callee must keep one frame
  spare.

The runs here are those of `StackLink.Machine.Reaches`, without fuel: how a run ends is the step
it ends by (`StackLink.Machine.EndsAt`). The machines have no step limit, since the two runs
count different numbers of instructions, and handlers leave the configuration alone.
-/

namespace StackLink

/-- An instruction read `k` bytes further on. -/
def Instruction.behind (k : Nat) (i : Instruction) : Instruction := { i with offset := k + i.offset }

/-- How a run ends, seen from code `k` bytes longer in front: a failed instruction stands `k`
bytes further on. -/
def RunError.behind (k : Nat) : RunError → RunError
  | .exec x => .exec { x with pc := k + x.pc }
  | e => e

namespace Code

/-- **Code after a prefix is read as it is on its own**, as many bytes further on as the
prefix is long. -/
theorem fetch_append_right (a b : List UInt8) (p : Nat) :
    fetch (a ++ b) (a.length + p) = (fetch b p).map (Instruction.behind a.length) := by
  rw [fetch_drop, List.drop_left]
  cases h : fetch b p with
  | none => rfl
  | some i => simp [Instruction.behind, offset_of_fetch h]

/-- **A complete instruction of a prefix is read the same way whatever follows it.** -/
theorem fetch_append_left {a b : List UInt8} {p : Nat} {i : Instruction}
    (h : fetch a p = some i) (ht : i.truncated = false) : fetch (a ++ b) p = some i := by
  unfold fetch at h ⊢
  split at h
  · cases h
  · rename_i x rest hd
    cases h
    -- the operands were all there, so what follows the prefix is never read
    have hp : p ≤ a.length := by
      have := congrArg List.length hd
      simp only [List.length_drop, List.length_cons] at this
      omega
    have hn : Opcode.operandLen x ≤ rest.length := by
      simp only [decide_eq_false_iff_not, List.length_take, Nat.not_lt] at ht
      omega
    rw [List.drop_append_of_le_length hp, hd, List.cons_append]
    simp only [List.take_append_of_le_length hn]

/-- Nothing is read only at or past the end of the code. -/
theorem length_le_of_fetch_eq_none {code : List UInt8} {p : Nat} (h : fetch code p = none) :
    code.length ≤ p := by
  unfold fetch at h
  split at h
  · rename_i hd
    exact List.drop_eq_nil_iff.mp hd
  · cases h

end Code

namespace Cursor

/-- Where a run of the word `W` stands while a run of `w` stands at the first place, `w`'s code
lying `k` bytes into `W`'s: in `w` itself, `k` bytes further on in `W`; deeper, in the words
`w` called, at the same place, with the place saved in `w` moved `k` bytes on. How many
instructions each run has counted is free. -/
inductive Within (w W : Word) (k : Nat) : Cursor → Cursor → Prop
  | outer (p n n' : Nat) : Within w W k ⟨w, p, [], n⟩ ⟨W, k + p, [], n'⟩
  | inner (v : Word) (p : Nat) (fs : List CallFrame) (q n n' : Nat) :
      Within w W k ⟨v, p, fs ++ [⟨w, q⟩], n⟩ ⟨v, p, fs ++ [⟨W, k + q⟩], n'⟩

/-- Where a run stands while it runs beneath one more saved caller `f`: at the same place,
with `f` below its own callers. -/
inductive Under (f : CallFrame) : Cursor → Cursor → Prop
  | mk (v : Word) (p : Nat) (fs : List CallFrame) (n n' : Nat) :
      Under f ⟨v, p, fs, n⟩ ⟨v, p, fs ++ [f], n'⟩

variable {w W : Word} {k : Nat} {f : CallFrame} {c C : Cursor}

/-- Both runs move past an instruction of the same length. -/
theorem Within.advance (hc : c.Within w W k C) (l n n' : Nat) :
    Within w W k { c with pc := c.pc + 1 + l, steps := n } { C with pc := C.pc + 1 + l, steps := n' } := by
  cases hc with
  | outer p =>
    have h := Within.outer (w := w) (W := W) (k := k) (p + 1 + l) n n'
    rwa [← Nat.add_assoc, ← Nat.add_assoc] at h
  | inner v p fs q => exact .inner v _ fs q n n'

theorem Under.advance (hc : c.Under f C) (l n n' : Nat) :
    Under f { c with pc := c.pc + 1 + l, steps := n } { C with pc := C.pc + 1 + l, steps := n' } := by
  cases hc with
  | mk v p fs => exact .mk v _ fs n n'

end Cursor

/-- A step of the run of `W` beside a step of the run of `w` (see `StackLink.Cursor.Within`):
both go on to related places, both end the run on the same machine, or both fail on the same
machine, a failure in `w` itself (`outer`) standing `k` bytes further on. -/
inductive Step.Within (w W : Word) (k : Nat) (outer : Bool) : Step → Step → Prop
  | next {m : Machine} {c C : Cursor} : c.Within w W k C →
      Step.Within w W k outer (.next m c) (.next m C)
  | done (m : Machine) : Step.Within w W k outer (.done m) (.done m)
  | fail (m : Machine) (e : RunError) :
      Step.Within w W k outer (.fail m e) (.fail m (if outer then e.behind k else e))

/-- A step of a run beneath the saved caller `f` beside a step of the same run on its own
(see `StackLink.Cursor.Under`): both go on to related places, or both fail alike; where the run
on its own ends, the other goes back to `f`. -/
inductive Step.Under (f : CallFrame) : Step → Step → Prop
  | next {m : Machine} {c C : Cursor} : c.Under f C → Step.Under f (.next m c) (.next m C)
  | done (m : Machine) (n : Nat) : Step.Under f (.done m) (.next m ⟨f.word, f.pc, [], n⟩)
  | fail (m : Machine) (e : RunError) : Step.Under f (.fail m e) (.fail m e)

namespace Step

variable {w W : Word} {k : Nat} {f : CallFrame} {c C : Cursor} {fail : VmError → RunError}

/-- **An effect takes the two runs on alike**, when a jump it makes in `w` itself lands in `w`:
only the place past the instruction differs, and the move is applied at each. -/
theorem ofEffect_within (fail : VmError → RunError) {outer : Bool} (hc : c.Within w W k C)
    (hout : c.frames.isEmpty = outer) (hk : k + w.code.length ≤ W.code.length)
    (E : Machine × Except VmError Machine.Move)
    (hj : c.frames = [] → ∀ d, E.2 = .ok (.jump d) →
      0 ≤ (c.pc : Int) + d ∧ (c.pc : Int) + d ≤ w.code.length) :
    Step.Within w W k outer (ofEffect fail c E)
      (ofEffect (fun e => if outer then (fail e).behind k else fail e) C E) := by
  obtain ⟨m, e | mv⟩ := E
  · exact .fail m (fail e)
  cases hc with
  | outer p n n' =>
    simp only [List.isEmpty_nil] at hout
    subst hout
    simp only [↓reduceIte]
    cases mv with
    | stay => exact .next (.outer p n n')
    | jump d =>
      -- a jump within `w` lands `k` bytes on in `W`, inside it
      obtain ⟨h0, hle⟩ := hj rfl d rfl
      simp only at h0 hle
      simp only [ofEffect, Machine.Move.apply]
      rw [if_neg (by omega), if_neg (by push_cast; omega),
        show ((k + p : Nat) + d : Int).toNat = k + ((p : Int) + d).toNat by omega]
      exact .next (.outer _ n n')
    | call v =>
      simp only [ofEffect, Machine.Move.apply, List.length_nil]
      split_ifs
      · exact .fail m _
      · exact .next (.inner v 0 [] p n n')
    | ret => exact .done m
  | inner v p fs q n n' =>
    have hne : (fs ++ [(⟨w, q⟩ : CallFrame)]).isEmpty = false := by simp
    rw [hne] at hout
    subst hout
    simp only [Bool.false_eq_true, ↓reduceIte]
    cases mv with
    | stay => exact .next (.inner v p fs q n n')
    | jump d =>
      -- deeper in the calls both runs stand in the same word
      simp only [ofEffect, Machine.Move.apply]
      split_ifs
      · exact .fail m _
      · exact .next (.inner v _ fs q n n')
    | call u =>
      simp only [ofEffect, Machine.Move.apply, List.length_append, List.length_singleton]
      split_ifs
      · exact .fail m _
      · exact .next (.inner u 0 (⟨v, p⟩ :: fs) q n n')
    | ret =>
      cases fs with
      | nil => exact .next (.outer q n n')
      | cons g gs => exact .next (.inner g.word g.pc gs q n n')

/-- **An effect takes a run beneath a caller on as it takes the run on its own**, when the
caller's frame still leaves room for a call that the run on its own makes. -/
theorem ofEffect_under (hc : c.Under f C) (E : Machine × Except VmError Machine.Move)
    (hdepth : ∀ v, E.2 = .ok (.call v) → c.frames.length < E.1.config.maxCallDepth →
      c.frames.length + 1 < E.1.config.maxCallDepth) :
    Step.Under f (ofEffect fail c E) (ofEffect fail C E) := by
  obtain ⟨m, e | mv⟩ := E
  · exact .fail m (fail e)
  cases hc with
  | mk v p fs n n' =>
    cases mv with
    | stay => exact .next (.mk v p fs n n')
    | jump d =>
      simp only [ofEffect, Machine.Move.apply]
      split_ifs
      · exact .fail m _
      · exact .next (.mk v _ fs n n')
    | call u =>
      have hroom := hdepth u rfl
      simp only at hroom
      simp only [ofEffect, Machine.Move.apply, List.length_append, List.length_singleton]
      by_cases hfull : fs.length ≥ m.config.maxCallDepth
      · -- the run on its own has no room: neither has the run beneath the caller
        rw [if_pos hfull, if_pos (by omega)]
        exact .fail m _
      · rw [if_neg hfull, if_neg (by omega)]
        exact .next (.mk u 0 (⟨v, p⟩ :: fs) n n')
    | ret =>
      cases fs with
      | nil => exact .done m n'
      | cons g gs => exact .next (.mk g.word g.pc gs n n')

end Step

namespace Machine

variable {sys : Option (SysHandler Id)} {m : Machine} {w W : Word} {k : Nat} {f : CallFrame}
  {c C : Cursor}

/-- Reading an instruction further on does not change what it does. -/
@[simp] theorem instructionEffect_behind (s : Nat) (i : Instruction) :
    instructionEffect sys m s (i.behind k) = instructionEffect sys m s i :=
  rfl

/-- **A step of the run of `w` is a step of the run of `W`**, `w`'s code lying `k` bytes into
`W`'s (see `StackLink.Cursor.Within`): in `w` itself, as long as `W` reads `w`'s instruction
there and a jump it takes lands in `w`; deeper in the calls, always. Without a step limit the
two counts of instructions play no part. -/
theorem step_within (hc : c.Within w W k C) (hW : W.name = w.name)
    (hk : k + w.code.length ≤ W.code.length) (hlim : m.config.maxSteps ≤ 0)
    (hfetch : c.frames = [] →
      Code.fetch W.code (k + c.pc) = (Code.fetch w.code c.pc).map (Instruction.behind k))
    (hj : c.frames = [] → ∀ i m' d, Code.fetch w.code c.pc = some i →
      instructionEffect sys m c.steps i = .ok (m', .ok (.jump d)) →
      0 ≤ ((c.pc + 1 + i.operands.length : Nat) : Int) + d ∧
        ((c.pc + 1 + i.operands.length : Nat) : Int) + d ≤ w.code.length) :
    Step.Within w W k c.frames.isEmpty (Id.run (m.step sys c)) (Id.run (m.step sys C)) := by
  rw [step_eq, step_eq]
  cases hc with
  | outer p n n' =>
    have hf := hfetch rfl
    have hjump := hj rfl
    simp only [List.isEmpty_nil] at hf hjump ⊢
    rw [hf]
    cases hi : Code.fetch w.code p with
    | none =>
      have h := Step.ofEffect_within (fun e => .exec ⟨w.name, p, 0, e⟩) (.outer p n n')
        rfl hk (m, .ok .ret) (fun _ _ h => by cases h)
      simpa [hW, RunError.behind] using h
    | some i =>
      simp only [Option.map_some, instructionEffect_behind, instructionEffect_unlimited hlim n' n]
      cases hE : instructionEffect sys m n i with
      | error r => exact .fail m (.abort r)
      | ok E =>
        -- a jump the instruction takes lands within `w`
        have h := Step.ofEffect_within (fun e => .exec ⟨w.name, i.offset, i.opcode, e⟩)
          ((Cursor.Within.outer p n n').advance i.operands.length (n + 1) (n' + 1)) rfl hk E
          (fun _ d hd => by
            obtain ⟨m', e⟩ := E
            cases hd
            exact hjump i m' d hi hE)
        simpa [hW, RunError.behind, Instruction.behind] using h
  | inner v p fs q n n' =>
    have hne : (fs ++ [(⟨w, q⟩ : CallFrame)]).isEmpty = false := by simp
    simp only [hne]
    cases hi : Code.fetch v.code p with
    | none =>
      exact Step.ofEffect_within (fun e => .exec ⟨v.name, p, 0, e⟩) (.inner v p fs q n n')
        hne hk (m, .ok .ret) (fun h => by simp at h)
    | some i =>
      simp only [instructionEffect_unlimited hlim n' n]
      cases hE : instructionEffect sys m n i with
      | error r => exact .fail m (.abort r)
      | ok E =>
        exact Step.ofEffect_within (fun e => .exec ⟨v.name, i.offset, i.opcode, e⟩)
          ((Cursor.Within.inner v p fs q n n').advance i.operands.length (n + 1) (n' + 1)) hne hk E
          (fun h => by simp at h)

/-- **A step of a run on its own is a step of the run beneath one more caller**, as long as a
call it makes still leaves room for that caller. Without a step limit the two counts of
instructions play no part. -/
theorem step_under (hc : c.Under f C) (hlim : m.config.maxSteps ≤ 0)
    (hdepth : ∀ m' c', Id.run (m.step sys c) = .next m' c' →
      c'.frames.length < m'.config.maxCallDepth) :
    Step.Under f (Id.run (m.step sys c)) (Id.run (m.step sys C)) := by
  rw [step_eq] at hdepth
  rw [step_eq, step_eq]
  cases hc with
  | mk v p fs n n' =>
    simp only at hdepth ⊢
    cases hi : Code.fetch v.code p with
    | none =>
      exact Step.ofEffect_under (.mk v p fs n n') (m, .ok .ret) (fun _ h => by cases h)
    | some i =>
      rw [hi] at hdepth
      simp only [instructionEffect_unlimited hlim n' n] at hdepth ⊢
      cases hE : instructionEffect sys m n i with
      | error r => exact .fail m (.abort r)
      | ok E =>
        rw [hE] at hdepth
        refine Step.ofEffect_under ((Cursor.Under.mk v p fs n n').advance _ (n + 1) (n' + 1)) E ?_
        -- a call the run on its own makes goes on with one more frame, still below the depth
        intro u hu hroom
        obtain ⟨m', e⟩ := E
        cases hu
        have := hdepth m' _ (by
          simp only [Step.ofEffect, Move.apply]
          rw [if_neg (by simpa using hroom)])
        simpa using this

end Machine

/-! ### Runs without fuel -/

namespace Machine

variable {sys : Option (SysHandler Id)} {m m₁ m₂ M₁ : Machine} {c c₁ c₂ C C₁ : Cursor}

theorem Reaches.trans (h₁ : m.Reaches sys c m₁ c₁) (h₂ : m₁.Reaches sys c₁ m₂ c₂) :
    m.Reaches sys c m₂ c₂ := by
  induction h₁ with
  | refl => exact h₂
  | step hs _ ih => exact .step hs (ih h₂)

/-- **A run has one path**: of two states it reaches, one is reached from the other. -/
theorem Reaches.total (h₁ : m.Reaches sys c m₁ c₁) (h₂ : m.Reaches sys c m₂ c₂) :
    m₁.Reaches sys c₁ m₂ c₂ ∨ m₂.Reaches sys c₂ m₁ c₁ := by
  induction h₁ with
  | refl => exact .inl h₂
  | step hs h ih =>
    cases h₂ with
    | refl => exact .inr (.step hs h)
    | step hs' h₂ =>
      -- both runs take the same first step
      rw [hs] at hs'
      cases hs'
      exact ih h₂

/-- A state whose step ends the run reaches no other. -/
theorem Reaches.eq_of_result (h : m.Reaches sys c m₁ c₁) {x : Machine × Except RunError Unit}
    (hend : (Id.run (m.step sys c)).result? = some x) : m₁ = m ∧ c₁ = c := by
  cases h with
  | refl => exact ⟨rfl, rfl⟩
  | step hs _ =>
    rw [hs] at hend
    cases hend

/-- The run from `(m, c)` ends by the step it takes at `c₁`, which hands back the machine `m'`
and the outcome `r`. -/
def EndsAt (sys : Option (SysHandler Id)) (m : Machine) (c c₁ : Cursor) (m' : Machine)
    (r : Except RunError Unit) : Prop :=
  ∃ m₁, m.Reaches sys c m₁ c₁ ∧ (Id.run (m₁.step sys c₁)).result? = some (m', r)

/-- **A run ends as it ends from any state it passes through.** -/
theorem Reaches.endsAt_iff (h : m.Reaches sys c m₁ c₁) {m' : Machine}
    {r : Except RunError Unit} :
    (∃ C, EndsAt sys m c C m' r) ↔ ∃ C, EndsAt sys m₁ c₁ C m' r := by
  constructor
  · rintro ⟨C, M, hR, hend⟩
    rcases h.total hR with h' | h'
    · exact ⟨C, M, h', hend⟩
    · -- a run that ended at or before the state ended at the state itself
      obtain ⟨rfl, rfl⟩ := h'.eq_of_result hend
      exact ⟨c₁, m₁, .refl _ _, hend⟩
  · rintro ⟨C, M, hR, hend⟩
    exact ⟨C, M, h.trans hR, hend⟩

/-- **A run followed step for step.** When every step that goes on from a state the first run
reaches is matched by a step of the second run from a related place, the second run reaches
a related place at every state the first reaches. -/
theorem Reaches.lift {R : Cursor → Cursor → Prop}
    (hnext : ∀ m₁ c₁ m' c' C₁, m.Reaches sys c m₁ c₁ → R c₁ C₁ →
      Id.run (m₁.step sys c₁) = .next m' c' → ∃ C', Id.run (m₁.step sys C₁) = .next m' C' ∧ R c' C')
    (h : m.Reaches sys c m₁ c₁) (hc : R c C) : ∃ C₁, R c₁ C₁ ∧ m.Reaches sys C m₁ C₁ := by
  induction h generalizing C with
  | refl => exact ⟨C, hc, .refl _ _⟩
  | step hs _ ih =>
    obtain ⟨C', hC', hc'⟩ := hnext _ _ _ _ _ (.refl _ _) hc hs
    obtain ⟨C₁, h₁, hr⟩ := ih (fun m₁ c₁ m' c' C₁ hr => hnext m₁ c₁ m' c' C₁ (.step hs hr)) hc'
    exact ⟨C₁, h₁, .step hC' hr⟩

/-- **A run that follows another one step for step goes nowhere else.** When every step that
goes on from a place related to a state the first run reaches is matched by a step of the
first run, every state the second run reaches is related to one the first reaches. -/
theorem Reaches.lift_back {R : Cursor → Cursor → Prop}
    (hback : ∀ m₁ c₁ M' C' C₁, m.Reaches sys c m₁ c₁ → R c₁ C₁ →
      Id.run (m₁.step sys C₁) = .next M' C' → ∃ c', Id.run (m₁.step sys c₁) = .next M' c' ∧ R c' C')
    (h : m.Reaches sys C M₁ C₁) (hc : R c C) : ∃ c₁, R c₁ C₁ ∧ m.Reaches sys c M₁ c₁ := by
  induction h generalizing c with
  | refl => exact ⟨c, hc, .refl _ _⟩
  | step hs _ ih =>
    obtain ⟨c', hc', hr'⟩ := hback _ _ _ _ _ (.refl _ _) hc hs
    obtain ⟨c₁, h₁, hr⟩ :=
      ih (fun m₁ c₁ M' C' C₁ hr hR hS => hback m₁ c₁ M' C' C₁ (.step hc' hr) hR hS) hr'
    exact ⟨c₁, h₁, .step hc' hr⟩

end Machine

/-! ### Related steps -/

namespace Step

variable {w W : Word} {k : Nat} {o : Bool} {f : CallFrame} {S S' : Step} {m : Machine}
  {c C : Cursor}

/-- Only `done` hands back a success. -/
theorem eq_done_of_result? {x : Machine} (h : S.result? = some (x, .ok ())) : S = .done x := by
  cases S <;> simp_all [result?]

theorem Within.next_left (h : Step.Within w W k o S S') (hs : S = .next m c) :
    ∃ C, S' = .next m C ∧ c.Within w W k C := by
  cases h <;> cases hs
  exact ⟨_, rfl, ‹_›⟩

theorem Within.next_right (h : Step.Within w W k o S S') (hs : S' = .next m C) :
    ∃ c, S = .next m c ∧ c.Within w W k C := by
  cases h <;> cases hs
  exact ⟨_, rfl, ‹_›⟩

/-- Related steps end the run alike: on the same machine, a failure in `w` itself standing
`k` bytes further on. -/
theorem Within.result? (h : Step.Within w W k o S S') :
    S'.result? = S.result?.map fun x => (x.1, if o then x.2.mapError (RunError.behind k) else x.2) := by
  cases h with
  | next _ => rfl
  | done m => cases o <;> rfl
  | fail m e => cases o <;> rfl

theorem Under.next_left (h : Step.Under f S S') (hs : S = .next m c) :
    ∃ C, S' = .next m C ∧ c.Under f C := by
  cases h <;> cases hs
  exact ⟨_, rfl, ‹_›⟩

/-- A step beneath the caller that goes on is a step of the run on its own, or the return to
the caller where that run ends. -/
theorem Under.next_right (h : Step.Under f S S') (hs : S' = .next m C) :
    (∃ c, S = .next m c ∧ c.Under f C) ∨ (S = .done m ∧ ∃ n, C = ⟨f.word, f.pc, [], n⟩) := by
  cases h with
  | next hc =>
    cases hs
    exact .inl ⟨_, rfl, hc⟩
  | done m n =>
    cases hs
    exact .inr ⟨rfl, n, rfl⟩
  | fail => cases hs

/-- A step beneath the caller ends the run only where the run on its own fails, and alike. -/
theorem Under.result? (h : Step.Under f S S') {x : Machine × Except RunError Unit}
    (hs : S'.result? = some x) : S.result? = some x ∧ ∃ e, x.2 = .error e := by
  cases h with
  | next => cases hs
  | done => cases hs
  | fail m e =>
    cases hs
    exact ⟨rfl, e, rfl⟩

theorem Under.result?_fail (h : Step.Under f S S') {e : RunError}
    (hs : S.result? = some (m, .error e)) : S'.result? = some (m, .error e) := by
  cases h with
  | next => cases hs
  | done => cases hs
  | fail => exact hs

/-- Where the run on its own ends, the run beneath the caller goes back to it. -/
theorem Under.done_left (h : Step.Under f S S') (hs : S = .done m) :
    ∃ n, S' = .next m ⟨f.word, f.pc, [], n⟩ := by
  cases h <;> cases hs
  exact ⟨_, rfl⟩

end Step

/-! ### Whole runs side by side -/

namespace Machine

variable {sys : Option (SysHandler Id)} {s m m' m₁ M₁ : Machine} {w W : Word} {k : Nat}
  {f : CallFrame} {c c' c₀ C₀ C₁ : Cursor}

/-- **Runs that follow each other inside a longer word end alike.** When every step of the run
of `w` from `(s, c₀)` is a step of the run of `W` from a related place, the two runs end on the
same machines, a failure in `w` itself standing `k` bytes further on. -/
theorem endsAt_within_iff
    (hsim : ∀ m₁ c₁ C₁, s.Reaches sys c₀ m₁ c₁ → c₁.Within w W k C₁ →
      Step.Within w W k c₁.frames.isEmpty (Id.run (m₁.step sys c₁)) (Id.run (m₁.step sys C₁)))
    (hc : c₀.Within w W k C₀) {r : Except RunError Unit} :
    (∃ C₁, EndsAt sys s C₀ C₁ m' r) ↔
      ∃ c₁ r₀, EndsAt sys s c₀ c₁ m' r₀ ∧
        r = if c₁.frames.isEmpty then r₀.mapError (RunError.behind k) else r₀ := by
  constructor
  · rintro ⟨C₁, M₁, hR, hend⟩
    -- the run of `W` stands where the run of `w` stands, and ends as it does
    obtain ⟨c₁, hc₁, hr⟩ := Reaches.lift_back (R := Cursor.Within w W k)
      (fun m₁ c₁ M' C' C₁ hr hR hS => (hsim m₁ c₁ C₁ hr hR).next_right hS) hR hc
    rw [(hsim M₁ c₁ C₁ hr hc₁).result?, Option.map_eq_some_iff] at hend
    obtain ⟨⟨m'', r₀⟩, hres, heq⟩ := hend
    simp only [Prod.mk.injEq] at heq
    obtain ⟨rfl, rfl⟩ := heq
    exact ⟨c₁, r₀, ⟨M₁, hr, hres⟩, rfl⟩
  · rintro ⟨c₁, r₀, ⟨M₁, hr, hres⟩, rfl⟩
    obtain ⟨C₁, hc₁, hR⟩ := Reaches.lift (R := Cursor.Within w W k)
      (fun m₁ c₁ m' c' C₁ hr hR hS => (hsim m₁ c₁ C₁ hr hR).next_left hS) hr hc
    refine ⟨C₁, M₁, hR, ?_⟩
    rw [(hsim M₁ c₁ C₁ hr hc₁).result?, hres]
    rfl

/-- A run beneath one more caller passes through every state of the run on its own. -/
theorem Reaches.under
    (hsim : ∀ m₁ c₁ C₁, s.Reaches sys c₀ m₁ c₁ → c₁.Under f C₁ →
      Step.Under f (Id.run (m₁.step sys c₁)) (Id.run (m₁.step sys C₁)))
    (h : s.Reaches sys c₀ m₁ c₁) (hc : c₀.Under f C₀) :
    ∃ C₁, c₁.Under f C₁ ∧ s.Reaches sys C₀ m₁ C₁ :=
  Reaches.lift (fun m₁ c₁ _ _ C₁ hr hR hS => (hsim m₁ c₁ C₁ hr hR).next_left hS) h hc

/-- **A run beneath one more caller goes nowhere else**: it stands where the run on its own
stands, until that run ends and it goes back to the caller. -/
theorem Reaches.under_back
    (hsim : ∀ m₁ c₁ C₁, s.Reaches sys c₀ m₁ c₁ → c₁.Under f C₁ →
      Step.Under f (Id.run (m₁.step sys c₁)) (Id.run (m₁.step sys C₁)))
    (h : s.Reaches sys C₀ M₁ C₁) (hc : c₀.Under f C₀) :
    (∃ c₁, c₁.Under f C₁ ∧ s.Reaches sys c₀ M₁ c₁) ∨
      ∃ c₁ m' n, EndsAt sys s c₀ c₁ m' (.ok ()) ∧
        m'.Reaches sys ⟨f.word, f.pc, [], n⟩ M₁ C₁ := by
  induction h generalizing c₀ with
  | refl => exact .inl ⟨c₀, hc, .refl _ _⟩
  | step hs h' ih =>
    rcases (hsim _ _ _ (.refl _ _) hc).next_right hs with ⟨c', hc', hU⟩ | ⟨hdone, n, rfl⟩
    · rcases ih (fun m₁ c₁ C₁ hr => hsim m₁ c₁ C₁ (.step hc' hr)) hU with
        ⟨c₁, hU₁, hr⟩ | ⟨c₁, m', n, ⟨M, hR, hres⟩, hr⟩
      · exact .inl ⟨c₁, hU₁, .step hc' hr⟩
      · exact .inr ⟨c₁, m', n, ⟨M, .step hc' hR, hres⟩, hr⟩
    · -- the run on its own ends here, and the other goes back to the caller
      exact .inr ⟨c₀, _, n, ⟨_, .refl _ _, by rw [hdone]; rfl⟩, h'⟩

theorem Reaches.fits (h : m.Reaches sys c m' c') (hc : c.Fits) : c'.Fits := by
  induction h with
  | refl => exact hc
  | step hs _ ih => exact ih (step_fits hc hs)

end Machine

/-! ### A prefix, then the rest -/

namespace Machine

variable {sys : Option (SysHandler Id)} {s m m' : Machine} {w : Word} {a b : List UInt8}
  {c C : Cursor}

/-- Every jump the run of `w` from `m` takes in `w` itself lands within `w`: at an instruction
or at its end. -/
def JumpsWithin (sys : Option (SysHandler Id)) (m : Machine) (w : Word) : Prop :=
  ∀ m₁ c₁ i t, m.Reaches sys ⟨w, 0, [], 0⟩ m₁ c₁ → c₁.frames = [] →
    Code.fetch w.code c₁.pc = some i → JumpTaken i.opcode m₁.data → i.target? = some t →
    0 ≤ t ∧ t ≤ w.code.length

/-- A run that ends well ends on the machine of its last state, whose configuration it kept. -/
theorem EndsAt.config_of_ok (hsys : ∀ h, sys = some h → h.KeepsConfig) {c₁ : Cursor}
    (h : EndsAt sys s c c₁ m' (.ok ())) : m'.config = s.config := by
  obtain ⟨M, hR, hres⟩ := h
  obtain ⟨rfl, -⟩ := step_eq_done (Step.eq_done_of_result? hres)
  exact Reaches.config hsys hR

/-- **Code after a prefix runs as it runs on its own**: every step of the run of `b` is a step of
the run of `a ++ b`, when the jumps `b` takes stay within `b`. -/
theorem step_after_prefix (hsys : ∀ h, sys = some h → h.KeepsConfig)
    (hlim : s.config.maxSteps ≤ 0) (hb : JumpsWithin sys s { w with code := b })
    (a : List UInt8) {m₁ : Machine} {c₁ C₁ : Cursor}
    (hr : s.Reaches sys ⟨{ w with code := b }, 0, [], 0⟩ m₁ c₁)
    (hc : c₁.Within { w with code := b } { w with code := a ++ b } a.length C₁) :
    Step.Within { w with code := b } { w with code := a ++ b } a.length c₁.frames.isEmpty
      (Id.run (m₁.step sys c₁)) (Id.run (m₁.step sys C₁)) := by
  refine step_within hc rfl (by simp) (by rw [Reaches.config hsys hr]; exact hlim)
    (fun _ => Code.fetch_append_right a b c₁.pc) ?_
  -- a jump `b` takes lands at its target, which lies within `b`
  intro hfr i m' d hi hE
  obtain ⟨htaken, htarget⟩ := instructionEffect_jump hi hE
  exact hb m₁ c₁ i _ hr hfr hi htaken htarget

/-- **Before it runs off its end, a prefix runs as it runs on its own**: a step that goes on in
the run of `a` is a step of the run of `a ++ b`. In `a` itself it read a complete instruction,
which `a ++ b` reads alike, and a jump it took landed within `a`. -/
theorem step_before_suffix (hlim : m.config.maxSteps ≤ 0)
    (hc : c.Within { w with code := a } { w with code := a ++ b } 0 C) {c' : Cursor}
    (hs : Id.run (m.step sys c) = .next m' c') :
    ∃ C', Id.run (m.step sys C) = .next m' C' ∧
      c'.Within { w with code := a } { w with code := a ++ b } 0 C' := by
  cases hc with
  | outer p n n' =>
    obtain ⟨i, hi, ht, hj⟩ := step_next_reads hs rfl
    refine (step_within (w := { w with code := a }) (W := { w with code := a ++ b }) (k := 0)
      (.outer p n n') rfl (by simp) hlim (fun _ => ?_)
      (fun _ i' m'' d hi' hE => ?_)).next_left hs
    · simp only [Nat.zero_add] at hi ⊢
      rw [Code.fetch_append_left hi ht, hi]
      simp [Instruction.behind]
    · simp only at hi hi'
      rw [hi] at hi'
      cases hi'
      exact hj m'' d hE
  | inner v p fs q n n' =>
    exact (step_within (w := { w with code := a }) (W := { w with code := a ++ b }) (k := 0)
      (.inner v p fs q n n') rfl (by simp) hlim (fun h => by simp at h)
      (fun h => by simp at h)).next_left hs

/-- **A prefix that succeeds without a `RET` in its own code runs off its end**: the run of
`a ++ b` then stands at the start of `b`, on the machine the prefix left. -/
theorem prefix_runs_into_suffix (hsys : ∀ h, sys = some h → h.KeepsConfig)
    (hlim : s.config.maxSteps ≤ 0) {ca : Cursor}
    (ha : EndsAt sys s ⟨{ w with code := a }, 0, [], 0⟩ ca m' (.ok ()))
    (hret : ∀ m₁ c₁ i, s.Reaches sys ⟨{ w with code := a }, 0, [], 0⟩ m₁ c₁ → c₁.frames = [] →
      Code.fetch a c₁.pc = some i → i.opcode ≠ Op.ret.byte) :
    ∃ n, s.Reaches sys ⟨{ w with code := a ++ b }, 0, [], 0⟩ m' ⟨{ w with code := a ++ b }, a.length, [], n⟩ := by
  obtain ⟨M, hR, hres⟩ := ha
  -- the run of `a ++ b` follows the run of `a` to its last state
  obtain ⟨C, hC, hRab⟩ := Reaches.lift
    (R := Cursor.Within { w with code := a } { w with code := a ++ b } 0)
    (C := ⟨{ w with code := a ++ b }, 0, [], 0⟩)
    (fun m₁ c₁ m' c' C₁ hr hR hS =>
      step_before_suffix (by rw [Reaches.config hsys hr]; exact hlim) hR hS) hR (.outer 0 0 0)
  -- where `a` ends by a return with no caller: not a `RET`, so the end of `a`
  obtain ⟨rfl, hfr, hend⟩ := step_eq_done (Step.eq_done_of_result? hres)
  cases hC with
  | inner v p fs q n n' => simp at hfr
  | outer p n n' =>
    have hfit : p ≤ a.length := (Reaches.fits hR ⟨Nat.zero_le _, by simp⟩).1
    have hp : p = a.length := by
      rcases hend with hnone | ⟨i, hi, hop⟩
      · have := Code.length_le_of_fetch_eq_none hnone
        simp only at this
        omega
      · exact absurd hop (hret _ _ i hR rfl hi)
    subst hp
    exact ⟨n', by simpa using hRab⟩

/-- **`a ++ b` ends as `b` ends after `a`**, when `a` succeeds without a `RET` in its own code and
`b` keeps its jumps within itself: on the same machine, with the same outcome, a failure in
`b`'s own code standing `a.length` bytes further on. -/
theorem append_ends_iff (hsys : ∀ h, sys = some h → h.KeepsConfig)
    (hlim : s.config.maxSteps ≤ 0) {ca : Cursor}
    (ha : EndsAt sys s ⟨{ w with code := a }, 0, [], 0⟩ ca m' (.ok ()))
    (hret : ∀ m₁ c₁ i, s.Reaches sys ⟨{ w with code := a }, 0, [], 0⟩ m₁ c₁ → c₁.frames = [] →
      Code.fetch a c₁.pc = some i → i.opcode ≠ Op.ret.byte)
    (hb : JumpsWithin sys m' { w with code := b }) {m₂ : Machine} {r : Except RunError Unit} :
    (∃ C, EndsAt sys s ⟨{ w with code := a ++ b }, 0, [], 0⟩ C m₂ r) ↔
      ∃ c r₀, EndsAt sys m' ⟨{ w with code := b }, 0, [], 0⟩ c m₂ r₀ ∧
        r = if c.frames.isEmpty then r₀.mapError (RunError.behind a.length) else r₀ := by
  obtain ⟨n, hR⟩ := prefix_runs_into_suffix (b := b) hsys hlim ha hret
  have hlim' : m'.config.maxSteps ≤ 0 := by rw [ha.config_of_ok hsys]; exact hlim
  rw [hR.endsAt_iff]
  exact endsAt_within_iff (fun m₁ c₁ C₁ hr hc => step_after_prefix hsys hlim' hb a hr hc)
    (.outer 0 0 n)

end Machine

/-! ### A call is a procedure call -/

namespace Machine

variable {sys : Option (SysHandler Id)} {s m : Machine} {w wi : Word} {i : UInt16} {b : List UInt8}

/-- `CALL i` at the start of a word enters word `i`, with the place after the call saved,
when the call depth leaves room for one caller. -/
theorem step_call (hlim : m.config.maxSteps ≤ 0) (hw : m.words[i.toNat]? = some wi)
    (hdepth : 0 < m.config.maxCallDepth) :
    Id.run (m.step sys ⟨{ w with code := Op.call.byte :: Bytes.le16 i.toNat ++ b }, 0, [], 0⟩) =
      .next m ⟨wi, 0, [⟨{ w with code := Op.call.byte :: Bytes.le16 i.toNat ++ b }, 3⟩], 1⟩ := by
  have hfetch : Code.fetch (Op.call.byte :: Bytes.le16 i.toNat ++ b) 0 =
      some ⟨0, Op.call.byte, Bytes.le16 i.toNat, false⟩ := by
    simp [Code.fetch, Bytes.le16, show Opcode.operandLen Op.call.byte = 2 from rfl]
  have hidx : Bytes.leValue (Bytes.le16 i.toNat) = i.toNat := Bytes.leValue_le16 i.toNat_lt
  have hop : Op.ofByte? Op.call.byte = some .call := rfl
  rw [step_eq]
  simp only [hfetch, instructionEffect, gt_iff_lt, show ¬ 0 < m.config.maxSteps by omega,
    false_and, if_false, Bool.false_eq_true, hop]
  simp only [effect, hidx, hw, Step.ofEffect, Move.apply, List.length_nil, ge_iff_le,
    Nat.le_zero, Nat.ne_of_gt hdepth, if_false]
  rfl

/-- **A call is a procedure call**: running `CALL i` followed by `b` ends as word `i` ends when it
fails, and otherwise as `b` ends, run from the machine word `i` left, a failure in `b`'s own
code standing three bytes further on. Word `i` must keep one frame spare for the caller, and
`b` keep its jumps within itself. -/
theorem call_ends_iff (hsys : ∀ h, sys = some h → h.KeepsConfig)
    (hlim : s.config.maxSteps ≤ 0) (hw : s.words[i.toNat]? = some wi)
    (hdepth : ∀ m₁ c₁, s.Reaches sys ⟨wi, 0, [], 0⟩ m₁ c₁ →
      c₁.frames.length < s.config.maxCallDepth)
    (hb : ∀ c s', EndsAt sys s ⟨wi, 0, [], 0⟩ c s' (.ok ()) →
      JumpsWithin sys s' { w with code := b })
    {m₂ : Machine} {r : Except RunError Unit} :
    (∃ C, EndsAt sys s ⟨{ w with code := Op.call.byte :: Bytes.le16 i.toNat ++ b }, 0, [], 0⟩ C m₂ r) ↔
      (∃ c e, EndsAt sys s ⟨wi, 0, [], 0⟩ c m₂ (.error e) ∧ r = .error e) ∨
      ∃ c s', EndsAt sys s ⟨wi, 0, [], 0⟩ c s' (.ok ()) ∧
        ∃ c' r₀, EndsAt sys s' ⟨{ w with code := b }, 0, [], 0⟩ c' m₂ r₀ ∧
          r = if c'.frames.isEmpty then r₀.mapError (RunError.behind 3) else r₀ := by
  -- the call itself, then word `i` beneath the saved place after the call
  have hstep : Id.run (s.step sys
      ⟨{ w with code := Op.call.byte :: Bytes.le16 i.toNat ++ b }, 0, [], 0⟩) =
      .next s ⟨wi, 0, [⟨{ w with code := Op.call.byte :: Bytes.le16 i.toNat ++ b }, 3⟩], 1⟩ :=
    step_call hlim hw (hdepth _ _ (.refl _ _))
  have hsim : ∀ m₁ c₁ C₁, s.Reaches sys ⟨wi, 0, [], 0⟩ m₁ c₁ →
      c₁.Under ⟨{ w with code := Op.call.byte :: Bytes.le16 i.toNat ++ b }, 3⟩ C₁ →
      Step.Under ⟨{ w with code := Op.call.byte :: Bytes.le16 i.toNat ++ b }, 3⟩
        (Id.run (m₁.step sys c₁)) (Id.run (m₁.step sys C₁)) := by
    intro m₁ c₁ C₁ hr hc
    refine step_under hc (by rw [Reaches.config hsys hr]; exact hlim) (fun m' c' hs => ?_)
    have hr' := hr.trans (.step hs (.refl _ _))
    rw [Reaches.config hsys hr']
    exact hdepth m' c' hr'
  -- `b` from the place after the call, on the machine word `i` left
  have hafter : ∀ s' c₁, EndsAt sys s ⟨wi, 0, [], 0⟩ c₁ s' (.ok ()) → ∀ n,
      ((∃ C, EndsAt sys s' ⟨{ w with code := Op.call.byte :: Bytes.le16 i.toNat ++ b }, 3, [], n⟩
          C m₂ r) ↔
        ∃ c' r₀, EndsAt sys s' ⟨{ w with code := b }, 0, [], 0⟩ c' m₂ r₀ ∧
          r = if c'.frames.isEmpty then r₀.mapError (RunError.behind 3) else r₀) := by
    intro s' c₁ hends n
    have hlim' : s'.config.maxSteps ≤ 0 := by rw [hends.config_of_ok hsys]; exact hlim
    exact endsAt_within_iff
      (fun _ _ _ hr hc =>
        step_after_prefix hsys hlim' (hb c₁ s' hends) (Op.call.byte :: Bytes.le16 i.toNat) hr hc)
      (.outer 0 0 n)
  rw [(Reaches.step hstep (.refl _ _)).endsAt_iff]
  constructor
  · rintro ⟨C₁, M₁, hR, hend⟩
    rcases Reaches.under_back hsim hR (.mk wi 0 [] 0 1) with
      ⟨c₁, hc₁, hr⟩ | ⟨c₁, s', n, hends, hR'⟩
    · -- the run ends inside word `i`: word `i` fails there alike
      obtain ⟨hres, e, he⟩ := (hsim M₁ c₁ C₁ hr hc₁).result? hend
      simp only at he
      subst he
      exact .inl ⟨c₁, e, ⟨M₁, hr, hres⟩, rfl⟩
    · -- word `i` returned, and the run ends in `b`
      exact .inr ⟨c₁, s', hends, (hafter s' c₁ hends n).mp ⟨C₁, M₁, hR', hend⟩⟩
  · rintro (⟨c₁, e, ⟨M₁, hr, hres⟩, rfl⟩ | ⟨c₁, s', hends, hrest⟩)
    · obtain ⟨C₁, hc₁, hR⟩ := Reaches.under hsim hr (.mk wi 0 [] 0 1)
      exact ⟨C₁, M₁, hR, (hsim M₁ c₁ C₁ hr hc₁).result?_fail hres⟩
    · obtain ⟨M₁, hr, hres⟩ := hends
      obtain ⟨C₁, hc₁, hR⟩ := Reaches.under hsim hr (.mk wi 0 [] 0 1)
      -- where word `i` ends, the run goes back after the call
      obtain ⟨n, hback⟩ := (hsim M₁ c₁ C₁ hr hc₁).done_left (Step.eq_done_of_result? hres)
      have hret := hR.trans (.step hback (.refl _ _))
      exact hret.endsAt_iff.mpr ((hafter s' c₁ ⟨M₁, hr, hres⟩ n).mpr hrest)

end Machine

/-! ### Code in sequence -/

namespace Machine

variable {sys : Option (SysHandler Id)} {s : Machine}

/-- **Code runs in sequence.** On a machine with no step limit, whose handler (if any) leaves the
configuration alone, running the code `a ++ b` from `s` ends as running `b` ends from the
machine `s'` that running `a` from `s` left, when `a` succeeds without a `RET` in its own code
and every jump `b` takes stays within `b`: on the same machine, with the same outcome, and a
failure in `b`'s own code stands `a.length` bytes further on. So several bare executions in a
row act like one execution of their concatenation.

In the same way `CALL i` is a procedure call: running `CALL i` followed by `b` from `s` ends as
word `i` ends from `s` when it fails, and otherwise as `b` ends from the machine word `i` left,
a failure in `b`'s own code standing three bytes further on; word `i` must leave room for one
more caller in every state it reaches, and `b` keep its jumps within itself. (A jump of `a`
that left `a` would make `a` fail, so `a` needs no such condition.) -/
theorem code_runs_in_sequence (hsys : ∀ h, sys = some h → h.KeepsConfig)
    (hlim : s.config.maxSteps ≤ 0) (w : Word) (b : List UInt8) :
    (∀ (a : List UInt8) (s' : Machine) (ca : Cursor),
      EndsAt sys s ⟨{ w with code := a }, 0, [], 0⟩ ca s' (.ok ()) →
      (∀ m₁ c₁ i, s.Reaches sys ⟨{ w with code := a }, 0, [], 0⟩ m₁ c₁ → c₁.frames = [] →
        Code.fetch a c₁.pc = some i → i.opcode ≠ Op.ret.byte) →
      JumpsWithin sys s' { w with code := b } →
      ∀ m₂ r, (∃ C, EndsAt sys s ⟨{ w with code := a ++ b }, 0, [], 0⟩ C m₂ r) ↔
        ∃ c r₀, EndsAt sys s' ⟨{ w with code := b }, 0, [], 0⟩ c m₂ r₀ ∧
          r = if c.frames.isEmpty then r₀.mapError (RunError.behind a.length) else r₀) ∧
    (∀ (i : UInt16) (wi : Word), s.words[i.toNat]? = some wi →
      (∀ m₁ c₁, s.Reaches sys ⟨wi, 0, [], 0⟩ m₁ c₁ → c₁.frames.length < s.config.maxCallDepth) →
      (∀ c s', EndsAt sys s ⟨wi, 0, [], 0⟩ c s' (.ok ()) → JumpsWithin sys s' { w with code := b }) →
      ∀ m₂ r,
        (∃ C, EndsAt sys s ⟨{ w with code := Op.call.byte :: Bytes.le16 i.toNat ++ b }, 0, [], 0⟩
          C m₂ r) ↔
        (∃ c e, EndsAt sys s ⟨wi, 0, [], 0⟩ c m₂ (.error e) ∧ r = .error e) ∨
        ∃ c s', EndsAt sys s ⟨wi, 0, [], 0⟩ c s' (.ok ()) ∧
          ∃ c' r₀, EndsAt sys s' ⟨{ w with code := b }, 0, [], 0⟩ c' m₂ r₀ ∧
            r = if c'.frames.isEmpty then r₀.mapError (RunError.behind 3) else r₀) :=
  ⟨fun _ _ _ ha hret hb _ _ => append_ends_iff hsys hlim ha hret hb,
    fun _ _ hw hdepth hb _ _ => call_ends_iff hsys hlim hw hdepth hb⟩

/-- `LIT_U8 5` then `DUP`, as one code and as a call of a word holding `LIT_U8 5` followed by
`DUP`, on a machine with no step limit: both push `5` twice. -/
theorem literal_then_dup_runs_in_sequence :
    (∃ C, EndsAt none ⟨⟨0, 1, 8, 4, 0⟩, #[⟨0, [], [Op.litU8.byte, 5]⟩], [], [], #[]⟩
        ⟨⟨-1, [], [Op.litU8.byte, 5] ++ [Op.dup.byte]⟩, 0, [], 0⟩ C
        ⟨⟨0, 1, 8, 4, 0⟩, #[⟨0, [], [Op.litU8.byte, 5]⟩], [5, 5], [], #[]⟩ (.ok ())) ∧
    (∃ C, EndsAt none ⟨⟨0, 1, 8, 4, 0⟩, #[⟨0, [], [Op.litU8.byte, 5]⟩], [], [], #[]⟩
        ⟨⟨-1, [], Op.call.byte :: Bytes.le16 (0 : UInt16).toNat ++ [Op.dup.byte]⟩, 0, [], 0⟩ C
        ⟨⟨0, 1, 8, 4, 0⟩, #[⟨0, [], [Op.litU8.byte, 5]⟩], [5, 5], [], #[]⟩ (.ok ())) := by
  have hnone : ∀ h, (none : Option (SysHandler Id)) = some h → h.KeepsConfig :=
    fun _ h => by cases h
  -- `LIT_U8 5` pushes `5` and runs off its end, as the prefix and as the called word
  have hlit : ∀ w : Word, w.code = [Op.litU8.byte, 5] →
      Id.run ((⟨⟨0, 1, 8, 4, 0⟩, #[⟨0, [], [Op.litU8.byte, 5]⟩], [], [], #[]⟩ : Machine).step none
        ⟨w, 0, [], 0⟩) = .next ⟨⟨0, 1, 8, 4, 0⟩, #[⟨0, [], [Op.litU8.byte, 5]⟩], [5], [], #[]⟩
          ⟨w, 2, [], 1⟩ := by
    rintro ⟨_, _, _⟩ rfl
    rfl
  have hlitEnd : ∀ w : Word, w.code = [Op.litU8.byte, 5] →
      Id.run ((⟨⟨0, 1, 8, 4, 0⟩, #[⟨0, [], [Op.litU8.byte, 5]⟩], [5], [], #[]⟩ : Machine).step none
        ⟨w, 2, [], 1⟩) = .done ⟨⟨0, 1, 8, 4, 0⟩, #[⟨0, [], [Op.litU8.byte, 5]⟩], [5], [], #[]⟩ := by
    rintro ⟨_, _, _⟩ rfl
    rfl
  -- the states the run of `LIT_U8 5` passes through: its start and its end
  have hlitStates : ∀ w : Word, w.code = [Op.litU8.byte, 5] → ∀ m₁ c₁,
      (⟨⟨0, 1, 8, 4, 0⟩, #[⟨0, [], [Op.litU8.byte, 5]⟩], [], [], #[]⟩ : Machine).Reaches none
        ⟨w, 0, [], 0⟩ m₁ c₁ → c₁ = ⟨w, 0, [], 0⟩ ∨ c₁ = ⟨w, 2, [], 1⟩ := by
    intro w hw m₁ c₁ hr
    cases hr with
    | refl => exact .inl rfl
    | step hs hr =>
      rw [hlit w hw] at hs
      cases hs
      cases hr with
      | refl => exact .inr rfl
      | step hs _ =>
        rw [hlitEnd w hw] at hs
        cases hs
  have hlitEnds : ∀ w : Word, w.code = [Op.litU8.byte, 5] →
      EndsAt none ⟨⟨0, 1, 8, 4, 0⟩, #[⟨0, [], [Op.litU8.byte, 5]⟩], [], [], #[]⟩ ⟨w, 0, [], 0⟩
        ⟨w, 2, [], 1⟩ ⟨⟨0, 1, 8, 4, 0⟩, #[⟨0, [], [Op.litU8.byte, 5]⟩], [5], [], #[]⟩ (.ok ()) :=
    fun w hw => ⟨_, .step (hlit w hw) (.refl _ _), by rw [hlitEnd w hw]; rfl⟩
  -- `DUP` pushes the `5` again, and takes no jump from any machine
  have hdupEnds : EndsAt none ⟨⟨0, 1, 8, 4, 0⟩, #[⟨0, [], [Op.litU8.byte, 5]⟩], [5], [], #[]⟩
      ⟨⟨-1, [], [Op.dup.byte]⟩, 0, [], 0⟩ ⟨⟨-1, [], [Op.dup.byte]⟩, 1, [], 1⟩
      ⟨⟨0, 1, 8, 4, 0⟩, #[⟨0, [], [Op.litU8.byte, 5]⟩], [5, 5], [], #[]⟩ (.ok ()) :=
    ⟨_, .step rfl (.refl _ _), rfl⟩
  have hdupJumps : ∀ m, JumpsWithin none m ⟨-1, [], [Op.dup.byte]⟩ := by
    intro m m₁ c₁ i t _ _ hi htaken _
    have hop : i.opcode = Op.dup.byte := by
      rcases hp : c₁.pc with _ | p <;> rw [hp] at hi
      · cases hi
        rfl
      · simp [Code.fetch] at hi
    rw [hop] at htaken
    rcases htaken with h | ⟨h, -⟩ | ⟨h, -⟩ <;> exact absurd h (by decide)
  have hrun := code_runs_in_sequence hnone (by decide) ⟨-1, [], []⟩ [Op.dup.byte]
    (s := ⟨⟨0, 1, 8, 4, 0⟩, #[⟨0, [], [Op.litU8.byte, 5]⟩], [], [], #[]⟩)
  refine ⟨(hrun.1 _ _ _ (hlitEnds _ rfl) ?_ (hdupJumps _) _ _).mpr ⟨_, _, hdupEnds, rfl⟩,
    (hrun.2 0 _ rfl ?_ (fun _ _ _ => hdupJumps _) _ _).mpr
      (.inr ⟨_, _, hlitEnds _ rfl, _, _, hdupEnds, rfl⟩)⟩
  · -- `LIT_U8 5` has no `RET`
    intro m₁ c₁ i hr _ hi
    rcases hlitStates _ rfl m₁ c₁ hr with rfl | rfl
    · cases hi
      decide
    · cases hi
  · -- the called word never saves a caller
    intro m₁ c₁ hr
    rcases hlitStates _ rfl m₁ c₁ hr with rfl | rfl <;> decide

end Machine

end StackLink
