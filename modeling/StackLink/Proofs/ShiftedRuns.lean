import Mathlib
import StackLink.Proofs.Relocation
import StackLink.Proofs.Footprint
import StackLink.Proofs.Failures

/-!
# Runs behind a longer table

Put a table `W` of `n` words in front of a machine's table, and relocate every word by `n`:
each word keeps its name and code but sits `n` places further up, and each of its calls
names the word `n` places further up (`StackLink.Machine.afterWords`). A run of a word there
is the run of the word in the original machine, step for step, with the same stacks and
memory, the same word names and offsets, and every word index shifted by `n`.

Two things can break the correspondence, and `StackLink.Code.Relocatable` rules both out:
a call whose index plus `n` wraps past sixteen bits, and a jump that lands inside an
instruction, where relocation may have changed the bytes the run reads next.

* An instruction other than `CALL` never reads the table, and never fails with a word index
  (`StackLink.Machine.execute_afterWords`, `StackLink.Machine.execute_fail_shift`).
* A `CALL` reads the word `n` places further up, or fails naming the index and the table
  size shifted by `n` (`StackLink.Machine.execute_call_afterWords`).
* Hence a step (`StackLink.Machine.step_shift`) and, by induction on the fuel, a whole run
  (`StackLink.Machine.runFor_shift`, `StackLink.Machine.exec_shift`) commute with the shift,
  as long as every word the run can reach is relocatable and the run stands at instruction
  starts (`StackLink.Machine.Shiftable`, kept by every step: `StackLink.Machine.step_shiftable`).

A system call handler is handed the whole machine, table included, and may answer differently
behind a longer table. The runs here have no handler, or one that neither reads nor changes
the table and names no word index (`StackLink.SysHandler.TableBlind`).
-/

namespace StackLink

/-! ### Shifting by `n` places -/

/-- The word registered `n` places further up, its calls relocated by `n`. -/
def Word.shift (n : Nat) (w : Word) : Word :=
  ⟨w.index + n, w.name, Code.relocate (UInt16.ofNat n) w.code⟩

/-- A saved place in a word registered `n` places further up. -/
def CallFrame.shift (n : Nat) (f : CallFrame) : CallFrame := ⟨f.word.shift n, f.pc⟩

/-- The same place of a run in words registered `n` places further up. -/
def Cursor.shift (n : Nat) (c : Cursor) : Cursor :=
  ⟨c.word.shift n, c.pc, c.frames.map (CallFrame.shift n), c.steps⟩

/-- A cause of failure seen from a table `n` words longer: a word index and a table size
grow by `n`, every other cause stays. -/
def VmError.shift (n : Nat) : VmError → VmError
  | .badWord i k => .badWord (i + n) (k + n)
  | e => e

/-- How a run ends, seen from a table `n` words longer. -/
def RunError.shift (n : Nat) : RunError → RunError
  | .exec e => .exec { e with cause := e.cause.shift n }
  | e => e

@[simp] theorem Word.shift_name (n : Nat) (w : Word) : (w.shift n).name = w.name := rfl

@[simp] theorem Word.shift_code (n : Nat) (w : Word) :
    (w.shift n).code = Code.relocate (UInt16.ofNat n) w.code := rfl

@[simp] theorem Cursor.shift_pc (n : Nat) (c : Cursor) : (c.shift n).pc = c.pc := rfl

@[simp] theorem Cursor.shift_steps (n : Nat) (c : Cursor) : (c.shift n).steps = c.steps := rfl

@[simp] theorem Cursor.shift_word (n : Nat) (c : Cursor) : (c.shift n).word = c.word.shift n :=
  rfl

@[simp] theorem Cursor.shift_frames (n : Nat) (c : Cursor) :
    (c.shift n).frames = c.frames.map (CallFrame.shift n) := rfl

namespace Machine

/-- The machine with the table `W` in front of its own, its own words relocated by the size of
`W`. -/
def afterWords (W : Array Word) (m : Machine) : Machine :=
  { m with words := W ++ m.words.map (Word.shift W.size) }

variable {W : Array Word} {m m' : Machine} {v : Int32}

@[simp] theorem afterWords_data : (m.afterWords W).data = m.data := rfl
@[simp] theorem afterWords_ret : (m.afterWords W).ret = m.ret := rfl
@[simp] theorem afterWords_mem : (m.afterWords W).mem = m.mem := rfl
@[simp] theorem afterWords_config : (m.afterWords W).config = m.config := rfl

/-- A machine put together from the fields of one with a table in front. -/
@[simp] theorem afterWords_mk (d r : List Int32) (mem : Array UInt8) :
    (⟨m.config, (m.afterWords W).words, d, r, mem⟩ : Machine) =
      (⟨m.config, m.words, d, r, mem⟩ : Machine).afterWords W := rfl

/-- Behind the table, word `j + n` is word `j` relocated. -/
theorem getElem?_afterWords (j : Nat) :
    (m.afterWords W).words[j + W.size]? = m.words[j]?.map (Word.shift W.size) := by
  simp [afterWords, Array.getElem?_append_right]

/-! The primitive operations never read the table. -/

theorem push_afterWords : (m.afterWords W).push v = (m.push v).map (afterWords W) := by
  by_cases h : m.data.length ≥ m.config.stackDepth <;> simp [push, h, Except.map]

theorem rpush_afterWords : (m.afterWords W).rpush v = (m.rpush v).map (afterWords W) := by
  by_cases h : m.ret.length ≥ m.config.stackDepth <;> simp [rpush, h, Except.map]

@[simp] theorem readMemory_afterWords (a : UInt32) (k : Nat) :
    (m.afterWords W).readMemory a k = m.readMemory a k := rfl

@[simp] theorem readMemory32_afterWords (a : UInt32) :
    (m.afterWords W).readMemory32 a = m.readMemory32 a := rfl

theorem writeMemory_afterWords (a : UInt32) (d : List UInt8) :
    (m.afterWords W).writeMemory a d = (m.writeMemory a d).map (afterWords W) := by
  by_cases h : a.toNat + d.length > m.mem.size <;> simp [writeMemory, span, h, Except.map]

end Machine

/-- A step of the run behind the table `W`, where only the machine and the cursor move. -/
def Step.lift (W : Array Word) : Step → Step
  | .next m c => .next (m.afterWords W) (c.shift W.size)
  | .done m => .done (m.afterWords W)
  | .fail m e => .fail (m.afterWords W) e

/-- A step of the run behind the table `W`: the machine and the cursor move, and a failure
names word indices `W.size` places further up. -/
def Step.shift (W : Array Word) : Step → Step
  | .next m c => .next (m.afterWords W) (c.shift W.size)
  | .done m => .done (m.afterWords W)
  | .fail m e => .fail (m.afterWords W) (e.shift W.size)

/-- Where no failure names a word index, lifting a step is shifting it. -/
theorem Step.lift_eq_shift {W : Array Word} {s : Step}
    (h : ∀ m e, s = .fail m e → e.shift W.size = e) : s.lift W = s.shift W := by
  cases s with
  | next m c => rfl
  | done m => rfl
  | fail m e => simp [lift, shift, h m e rfl]

namespace Machine

variable {W : Array Word} {m m' : Machine} {v : Int32} {c : Cursor} {i : Instruction} {op : Op}

/-! ### An instruction other than a call -/

/-- **An instruction other than `CALL` never reads the table**: behind a longer table it does
what it did, on the same stacks and memory. -/
theorem execute_afterWords (hop : op ≠ .call) :
    (m.afterWords W).execute (c.shift W.size) i op = (m.execute c i op).lift W := by
  generalize hs : m.execute c i op = s
  unfold execute at hs
  dsimp only at hs
  -- split the original instruction to the end, then run the one behind the table alongside
  split at hs <;> (repeat' split at hs) <;> subst hs <;>
    (try simp_all [execute, Step.lift, push_afterWords, rpush_afterWords, writeMemory_afterWords,
      writeMemory32, Except.map]) <;>
    (try rfl) <;>
    (try (cases hd : m.data <;> simp_all)) <;>
    (try (rw [if_neg (by omega)]; rfl))

variable {e : VmError}

theorem push_error (h : m.push v = .error e) : e = .stackOverflow := by
  unfold push at h; split at h <;> cases h; rfl

theorem rpush_error (h : m.rpush v = .error e) : e = .stackOverflow := by
  unfold rpush at h; split at h <;> cases h; rfl

theorem readMemory_error {a : UInt32} {k : Nat} (h : m.readMemory a k = .error e) :
    e = .memoryBounds k a m.mem.size := by
  unfold readMemory span at h; split at h <;> cases h; rfl

theorem readMemory32_error {a : UInt32} (h : m.readMemory32 a = .error e) :
    e = .memoryBounds 4 a m.mem.size := by
  unfold readMemory32 readMemory span at h; split at h <;> cases h; rfl

theorem writeMemory_error {a : UInt32} {d : List UInt8} (h : m.writeMemory a d = .error e) :
    e = .memoryBounds d.length a m.mem.size := by
  unfold writeMemory span at h; split at h <;> cases h; rfl

theorem binaryOp_error {a b : Int32} (h : binaryOp op a b = .error e) :
    e = .divideByZero ∨ e = .unknownOpcode op.byte := by
  unfold binaryOp at h; split at h <;> (try split at h) <;> cases h <;> simp

/-- **Only a call fails naming a word index**: the failure of any other instruction reads the
same from a longer table. -/
theorem execute_fail_shift {r : RunError} (n : Nat) (hop : op ≠ .call)
    (h : m.execute c i op = .fail m' r) : r.shift n = r := by
  unfold execute at h
  dsimp only at h
  split at h <;> (repeat' split at h) <;> (try cases h) <;>
    grind [RunError.shift, VmError.shift, writeMemory32, → push_error, → rpush_error,
      → readMemory_error, → readMemory32_error, → writeMemory_error, → binaryOp_error]

/-! ### A call -/

/-- **A call behind the table names the word `W.size` places further up**: it enters that word
relocated, or fails with the index and the table size shifted. -/
theorem execute_call_afterWords {i' : Instruction} (ho : i'.offset = i.offset)
    (hc : i'.opcode = i.opcode)
    (hidx : Bytes.leValue i'.operands = Bytes.leValue i.operands + W.size) :
    (m.afterWords W).execute (c.shift W.size) i' .call = (m.execute c i .call).shift W := by
  simp only [execute, hidx, ho, hc, getElem?_afterWords]
  cases hw : m.words[Bytes.leValue i.operands]? with
  | none =>
    -- the table behind `W` is `W.size` words longer
    have hsize : (m.afterWords W).words.size = m.words.size + W.size := by
      simp [afterWords, Nat.add_comm]
    simp [Step.shift, RunError.shift, VmError.shift, hsize]
  | some w =>
    by_cases hd : c.frames.length ≥ m.config.maxCallDepth
    · simp [hd, Step.shift, RunError.shift, VmError.shift]
    · simp [hd, Step.shift, Cursor.shift, CallFrame.shift]

/-- **An instruction of relocatable code runs behind the table as it ran before**, relocated. -/
theorem execute_shift {code : List UInt8} (hmem : i ∈ Code.decode code) (ht : i.truncated = false)
    (hfit : Code.CallsFit W.size code) (hop : Op.ofByte? i.opcode = some op) :
    (m.afterWords W).execute (c.shift W.size) (i.relocate (UInt16.ofNat W.size)) op =
      (m.execute c i op).shift W := by
  by_cases hcall : op = .call
  · subst hcall
    have hbyte : i.opcode = Op.call.byte := (Op.byte_of_ofByte? hop).symm
    exact execute_call_afterWords Instruction.relocate_offset Instruction.relocate_opcode
      (Code.leValue_relocate_call hfit hmem hbyte ht)
  · -- only a call is relocated
    have hbyte : i.opcode ≠ Op.call.byte := by
      intro hb
      rw [hb] at hop
      exact hcall (Option.some.inj (hop.symm.trans rfl))
    rw [Instruction.relocate_of_ne_call hbyte, execute_afterWords hcall]
    exact Step.lift_eq_shift fun m' r h => execute_fail_shift W.size hcall h

/-! ### System call handlers that ignore the table -/

end Machine

/-- A handler's result on the machine with the table `ws` in place of its own. -/
def SysResult.withTable (ws : Array Word) : SysResult → SysResult
  | .ok m => .ok { m with words := ws }
  | .error m e => .error { m with words := ws } e
  | .abort r => .abort r

/-- A handler's result seen behind the table `W`. -/
def SysResult.shift (W : Array Word) : SysResult → SysResult
  | .ok m => .ok (m.afterWords W)
  | .error m e => .error (m.afterWords W) e
  | .abort r => .abort r

/-- A handler that never looks at the word table and leaves it as it is: handed the machine
with another table, it does what it did, with that table. Nor does it report a word index,
which would be an index of a table it does not read. -/
structure SysHandler.TableBlind (h : SysHandler Id) : Prop where
  table : ∀ m ws id args,
    Id.run (h { m with words := ws } id args) = (Id.run (h m id args)).withTable ws
  noBadWord : ∀ m id args m' i k, Id.run (h m id args) ≠ .error m' (.badWord i k)

namespace SysHandler

variable {h : SysHandler Id} {m m' : Machine} {id : UInt8} {args : List UInt8}

/-- A handler blind to the table hands back the table it was given. -/
theorem TableBlind.withTable_self (hb : h.TableBlind) (m : Machine) (id : UInt8)
    (args : List UInt8) : (Id.run (h m id args)).withTable m.words = Id.run (h m id args) :=
  (hb.table m m.words id args).symm

theorem TableBlind.words_of_ok (hb : h.TableBlind) (hr : Id.run (h m id args) = .ok m') :
    m'.words = m.words := by
  have hself := hb.withTable_self m id args
  rw [hr, SysResult.withTable, SysResult.ok.injEq] at hself
  rw [← hself]

theorem TableBlind.words_of_error (hb : h.TableBlind) {e : VmError}
    (hr : Id.run (h m id args) = .error m' e) : m'.words = m.words := by
  have hself := hb.withTable_self m id args
  rw [hr, SysResult.withTable, SysResult.error.injEq] at hself
  rw [← hself.1]

/-- **Behind a table, a handler blind to it does what it did**, behind the table. -/
theorem TableBlind.afterWords (hb : h.TableBlind) (W : Array Word) :
    Id.run (h (m.afterWords W) id args) = (Id.run (h m id args)).shift W := by
  rw [Machine.afterWords, hb.table]
  cases hr : Id.run (h m id args) with
  | ok m' => simp [SysResult.withTable, SysResult.shift, Machine.afterWords, hb.words_of_ok hr]
  | error m' e =>
    simp [SysResult.withTable, SysResult.shift, Machine.afterWords, hb.words_of_error hr]
  | abort r => rfl

end SysHandler

/-- A cause that names no word index reads the same from a longer table. -/
theorem VmError.shift_of_ne_badWord {e : VmError} (n : Nat) (h : ∀ i k, e ≠ .badWord i k) :
    e.shift n = e := by
  cases e <;> first | rfl | exact absurd rfl (h _ _)

namespace Machine

variable {W : Array Word} {m m' : Machine} {v : Int32} {c : Cursor} {i : Instruction} {op : Op}

/-! ### Steps and runs -/

/-- Where a run may stand so that the run behind a longer table keeps in step with it. Every
word of the table, the word the run is in and every word it will return to are relocatable by
`n`; the run stands, and will resume, at instruction starts. -/
structure Shiftable (n : Nat) (m : Machine) (c : Cursor) : Prop where
  table : ∀ w ∈ m.words, Code.Relocatable n w.code
  word : Code.Relocatable n c.word.code
  pc : Code.IsStart c.word.code c.pc
  frames : ∀ f ∈ c.frames, Code.Relocatable n f.word.code ∧ Code.IsStart f.word.code f.pc

variable {n : Nat}

theorem Shiftable.of_words (h : Shiftable n m c) (hw : m'.words = m.words) : Shiftable n m' c :=
  ⟨hw ▸ h.table, h.word, h.pc, h.frames⟩

theorem Shiftable.jump (h : Shiftable n m c) {p : Nat} (hp : Code.IsStart c.word.code p) :
    Shiftable n m { c with pc := p } :=
  ⟨h.table, h.word, hp, h.frames⟩

theorem Shiftable.call (h : Shiftable n m c) {w : Word} (hw : w ∈ m.words) :
    Shiftable n m { c with word := w, pc := 0, frames := ⟨c.word, c.pc⟩ :: c.frames } := by
  refine ⟨h.table, h.table w hw, Code.isStart_zero _, ?_⟩
  intro f hf
  rcases List.mem_cons.mp hf with rfl | hf
  · exact ⟨h.word, h.pc⟩
  · exact h.frames f hf

theorem Shiftable.ret (h : Shiftable n m c) {f : CallFrame} {fs : List CallFrame}
    (hf : c.frames = f :: fs) : Shiftable n m { c with word := f.word, pc := f.pc, frames := fs } := by
  have hframes := h.frames
  rw [hf] at hframes
  obtain ⟨hw, hp⟩ := hframes f List.mem_cons_self
  exact ⟨h.table, hw, hp, fun g hg => hframes g (List.mem_cons_of_mem f hg)⟩

/-- Past a whole instruction of the word, the run stands at the next instruction start. -/
theorem Shiftable.next (h : Shiftable n m c) (hi : Code.fetch c.word.code c.pc = some i)
    (ht : i.truncated = false) :
    Shiftable n m { c with pc := c.pc + 1 + i.operands.length, steps := c.steps + 1 } :=
  ⟨h.table, h.word, Code.offset_of_fetch hi ▸ Code.isStart_next (Code.mem_decode_of_fetch h.pc hi) ht,
    h.frames⟩

/-- A taken jump of the word that lands inside it lands at an instruction start. -/
theorem Shiftable.jump_lands (h : Shiftable n m c) (hi : Code.fetch c.word.code c.pc = some i)
    (ht : i.truncated = false) (hbyte : Op.ofByte? i.opcode = some op) (t : Int)
    (hop : op = .jmp ∨ op = .jz ∨ op = .jnz)
    (htarget : t = ((c.pc + 1 + i.operands.length : Nat) : Int) +
      Bytes.signed 16 (Bytes.leValue i.operands))
    (h0 : 0 ≤ t) (hle : t ≤ c.word.code.length) : Code.IsStart c.word.code t.toNat := by
  have hmem := Code.mem_decode_of_fetch h.pc hi
  have hjump : i.opcode = Op.jmp.byte ∨ i.opcode = Op.jz.byte ∨ i.opcode = Op.jnz.byte := by
    rw [← Op.byte_of_ofByte? hbyte]
    rcases hop with rfl | rfl | rfl <;> simp
  refine h.word.jumps i hmem t ?_ h0 hle
  rw [Code.target?_of_jump hmem ht hjump, Code.offset_of_fetch hi, htarget]
  rfl

/-- **Where an instruction that goes on leaves the run**: where it was, at a taken jump's target
inside the word, at the start of a word of the table with the place after the call saved, or
back in the caller. -/
theorem execute_next_cursor {c' : Cursor} (hs : m.execute c i op = .next m' c') :
    c' = c ∨
      (∃ t : Int, (op = .jmp ∨ op = .jz ∨ op = .jnz) ∧
        t = c.pc + Bytes.signed 16 (Bytes.leValue i.operands) ∧ 0 ≤ t ∧ t ≤ c.word.code.length ∧
        c' = { c with pc := t.toNat }) ∨
      (∃ w ∈ m.words, c' = { c with word := w, pc := 0, frames := ⟨c.word, c.pc⟩ :: c.frames }) ∨
      (∃ f fs, c.frames = f :: fs ∧ c' = { c with word := f.word, pc := f.pc, frames := fs }) := by
  unfold execute at hs
  dsimp only at hs
  split at hs <;> (repeat' split at hs) <;> (try cases hs)
  -- each instruction that goes on: in place, a jump, a call or a return
  all_goals first
    | exact .inl rfl
    | exact .inr (.inl ⟨_, by simp, rfl, by omega, by omega, rfl⟩)
    | exact .inr (.inr (.inl ⟨_, Array.mem_of_getElem? ‹_›, rfl⟩))
    | exact .inr (.inr (.inr ⟨_, _, ‹_›, rfl⟩))

/-- An instruction of a run that can be shifted leads to a place where it still can, when its
jumps land at instruction starts. -/
theorem execute_shiftable (h : Shiftable n m c) {c' : Cursor}
    (hland : ∀ t : Int, (op = .jmp ∨ op = .jz ∨ op = .jnz) →
      t = c.pc + Bytes.signed 16 (Bytes.leValue i.operands) → 0 ≤ t → t ≤ c.word.code.length →
      Code.IsStart c.word.code t.toNat)
    (hs : m.execute c i op = .next m' c') : Shiftable n m' c' := by
  have hw : m'.words = m.words := by
    have := (execute_alike (m := m) c i op).words
    rwa [hs] at this
  refine Shiftable.of_words ?_ hw
  rcases execute_next_cursor hs with rfl | ⟨t, hop, ht, h0, hle, rfl⟩ | ⟨w, hmem, rfl⟩ |
    ⟨f, fs, hf, rfl⟩
  · exact h
  · exact h.jump (hland t hop ht h0 hle)
  · exact h.call hmem
  · exact h.ret hf

/-- **A step of a run that can be shifted leads to a place where it still can.** -/
theorem step_shiftable {sys : Option (SysHandler Id)} (hsys : ∀ h, sys = some h → h.TableBlind)
    (h : Shiftable n m c) {c' : Cursor}
    (hs : Id.run (m.step sys c) = .next m' c') : Shiftable n m' c' := by
  unfold step at hs
  cases hi : Code.fetch c.word.code c.pc with
  | none =>
    -- the end of a word returns to the caller
    rw [hi] at hs
    cases hfr : c.frames with
    | nil => simp [hfr] at hs
    | cons f fs =>
      simp only [hfr] at hs
      cases hs
      exact h.ret hfr
  | some i =>
    rw [hi] at hs
    dsimp only at hs
    split at hs
    · cases hs
    split at hs
    · cases hs
    rename_i htr
    have ht : i.truncated = false := by simpa using htr
    -- the run goes on past the instruction, at the start of the next one
    have hnext := h.next hi ht
    split at hs
    · cases hs
    · -- a system call goes on past the instruction: the handler keeps the table, and the
      -- machine's own refusal is no jump
      split at hs
      · rename_i hdl id args _
        simp only [Id.run_bind] at hs
        cases hr : Id.run (hdl m id args) with
        | ok m'' =>
          rw [hr] at hs
          cases hs
          exact hnext.of_words ((hsys hdl rfl).words_of_ok hr)
        | error m'' e => rw [hr] at hs; cases hs
        | abort r => rw [hr] at hs; cases hs
      · have hexec : m.execute { c with pc := c.pc + 1 + i.operands.length, steps := c.steps + 1 } i
            .sys = .next m' c' := hs
        exact execute_shiftable hnext (fun _ hop => absurd hop (by simp)) hexec
    · rename_i op _ hbyte
      exact execute_shiftable hnext (fun t hop => h.jump_lands hi ht hbyte t hop) hs

/-- **A step behind the table is the step shifted.** -/
theorem step_shift {sys : Option (SysHandler Id)} (hsys : ∀ h, sys = some h → h.TableBlind)
    (h : Shiftable W.size m c) :
    Id.run ((m.afterWords W).step sys (c.shift W.size)) = (Id.run (m.step sys c)).shift W := by
  have hf : Code.fetch (c.shift W.size).word.code c.pc =
      (Code.fetch c.word.code c.pc).map (Instruction.relocate (UInt16.ofNat W.size)) :=
    Code.fetch_relocate _ h.pc
  unfold step
  rw [Cursor.shift_pc, hf]
  cases hi : Code.fetch c.word.code c.pc with
  | none =>
    -- the end of a word returns to the caller on both sides
    cases hfr : c.frames with
    | nil => simp [hfr, Step.shift]
    | cons f fs => simp [hfr, Step.shift, Cursor.shift, CallFrame.shift]
  | some i =>
    have hmem := Code.mem_decode_of_fetch h.pc hi
    have hlen : (i.relocate (UInt16.ofNat W.size)).operands.length = i.operands.length :=
      Instruction.length_operands_relocate (Code.operands_decodeFrom hmem)
    simp only [Option.map_some, Instruction.relocate_offset, Instruction.relocate_opcode,
      Instruction.relocate_truncated, hlen, afterWords_config, Cursor.shift_steps,
      Cursor.shift_word, Word.shift_name]
    -- the step limit and a truncated instruction stop both runs alike
    split_ifs with hlim htr
    · rfl
    · rfl
    · have ht : i.truncated = false := by simpa using htr
      split
      · rfl
      · -- a system call: the same handler sees the same machine behind the table
        rename_i hbyte
        have hops : (i.relocate (UInt16.ofNat W.size)).operands = i.operands := by
          rw [Instruction.relocate_of_ne_call]
          rw [← Op.byte_of_ofByte? hbyte]
          decide
        rw [hops]
        split
        · rename_i hdl id args _
          have hb := hsys hdl rfl
          simp only [Id.run_bind]
          rw [hb.afterWords W]
          cases hr : Id.run (hdl m id args) with
          | ok m'' => rfl
          | error m'' e =>
            simp [SysResult.shift, Step.shift, RunError.shift,
              VmError.shift_of_ne_badWord _ (fun i k he => hb.noBadWord m id args m'' i k (he ▸ hr))]
          | abort r => rfl
        · exact execute_shift (c := { c with pc := c.pc + 1 + i.operands.length, steps := c.steps + 1 })
            hmem ht h.word.calls hbyte
      · exact execute_shift (c := { c with pc := c.pc + 1 + i.operands.length, steps := c.steps + 1 })
          hmem ht h.word.calls ‹_›

/-- **A run behind the table is the run shifted**: it ends on the machine the run ends on,
behind the table, and fails where the run fails, naming word indices shifted by the table's
size. -/
theorem runFor_shift {sys : Option (SysHandler Id)} (hsys : ∀ h, sys = some h → h.TableBlind)
    (fuel : Nat) (h : Shiftable W.size m c) :
    Id.run (runFor sys fuel (m.afterWords W) (c.shift W.size)) =
      ((Id.run (runFor sys fuel m c)).1.afterWords W,
        (Id.run (runFor sys fuel m c)).2.mapError (RunError.shift W.size)) := by
  induction fuel generalizing m c with
  | zero => rfl
  | succ fuel ih =>
    simp only [runFor, Id.run_bind]
    rw [step_shift hsys h]
    cases hs : Id.run (m.step sys c) with
    | next m' c' => exact ih (step_shiftable hsys h hs)
    | done m' => rfl
    | fail m' e => rfl

/-- **A word of relocatable code runs behind the table as it runs in front**, on a table of
relocatable code. -/
theorem exec_shift {sys : Option (SysHandler Id)} (hsys : ∀ h, sys = some h → h.TableBlind)
    {w : Word} (htable : ∀ w' ∈ m.words, Code.Relocatable W.size w'.code)
    (hw : Code.Relocatable W.size w.code) :
    Id.run ((m.afterWords W).exec sys (w.shift W.size)) =
      ((Id.run (m.exec sys w)).1.afterWords W,
        (Id.run (m.exec sys w)).2.mapError (RunError.shift W.size)) :=
  runFor_shift (c := ⟨w, 0, [], 0⟩) hsys _ ⟨htable, hw, Code.isStart_zero _, by simp⟩

end Machine

end StackLink
