import Mathlib
import StackLink.Proofs.StackEffects

/-!
# Every walk over code cuts it at the same places

Code is read in several places: the walk `StackLink.Code.decode`, the call list, call relocation
and the disassembler, which make walks of their own by offsets into the code, and the machine,
which reads one instruction at a time where its program counter stands
(`StackLink.Code.fetch`). This file shows that they all see the same instructions.

**The walkers agree** (`StackLink.Code.instruction_walks_agree`, with the agreement spelt out
field by field in `StackLink.Code.WalksAgree`). At every offset of the walk the machine reads
the walk's instruction, and disassembling there prints it and gives its length; a listing has
one line per instruction, headed by its offset, and ends with a line reporting a truncated
instruction exactly when the walk ends with one; the call list holds the indices of the
complete calls, in order; relocation writes back each instruction of the walk, relocated, at
its offset. A complete jump lands, on the machine, where the walk says it does and where the
disassembler's arrow points; a complete literal pushes the value the walk gives it and the
disassembler prints.

The facts behind it:

* each walk of its own is a function of the decoded instructions
  (`StackLink.Code.callTargets_eq_filterMap`, `StackLink.Code.relocate_eq_flatMap`,
  `StackLink.Code.disassembleAt_eq`, `StackLink.Code.listingLines_eq_map`);
* read from any offset, the walk starts with the instruction the machine reads there
  (`StackLink.Code.head?_decodeFrom_drop`);
* a truncation line ends with `>`, and the text of a complete instruction never does: it ends
  with a digit of a number, a bracket or a letter of the opcode's name
  (`StackLink.Instruction.endsWithoutGt_text`);
* a step at a taken jump moves the run to the jump's target, and one at a literal pushes the
  value decoding gives the literal, read by the machine at the literal's own width
  (`StackLink.Machine.step_jump_taken`, `StackLink.Machine.step_literal`).
-/

namespace StackLink

/-! ### Last characters of listing text -/

/-- `s` is not empty and its last character is not `>`, the one a truncation line ends with. -/
def EndsWithoutGt (s : String) : Prop :=
  ∃ c, s.toList.getLast? = some c ∧ c ≠ '>'

theorem EndsWithoutGt.append_left {s t : String} (h : EndsWithoutGt t) :
    EndsWithoutGt (s ++ t) := by
  obtain ⟨c, hc, hne⟩ := h
  exact ⟨c, by simp [String.toList_append, List.getLast?_append, hc], hne⟩

theorem endsWithoutGt_of_isDigit {s : String} {c : Char} (h : s.toList.getLast? = some c)
    (hd : c.isDigit = true) : EndsWithoutGt s :=
  ⟨c, h, by rintro rfl; exact absurd hd (by decide)⟩

/-- A natural number is written with digits, so it ends with one. -/
theorem endsWithoutGt_toString_nat (n : Nat) : EndsWithoutGt (toString n) := by
  obtain ⟨c, hc⟩ : ∃ c, (Nat.toDigits 10 n).getLast? = some c :=
    Option.ne_none_iff_exists'.mp (by simp [Nat.toDigits_ne_nil])
  have hd : c.isDigit = true :=
    Nat.isDigit_of_mem_toDigits (by decide) (by decide) (List.mem_of_getLast? hc)
  refine endsWithoutGt_of_isDigit ?_ hd
  rw [show toString n = n.repr from rfl, Nat.toList_repr, hc]

/-- An integer is written as its absolute value, after a sign when negative. -/
theorem endsWithoutGt_toString_int (n : Int) : EndsWithoutGt (toString n) := by
  cases n with
  | ofNat m => exact endsWithoutGt_toString_nat m
  | negSucc m => exact (endsWithoutGt_toString_nat (m + 1)).append_left

theorem endsWithoutGt_of_last {s : String} {c : Char} (hc : c ≠ '>') :
    EndsWithoutGt (s ++ String.singleton c) :=
  EndsWithoutGt.append_left ⟨c, by simp, hc⟩

/-- No opcode's name ends with `>`: the table's names end with a letter or a digit, and an
unknown byte's name with a bracket. -/
theorem endsWithoutGt_name (b : UInt8) : EndsWithoutGt (Opcode.info b).name := by
  unfold Opcode.info
  split
  · rename_i op _
    cases op <;> exact ⟨_, rfl, by decide⟩
  · exact endsWithoutGt_of_last (c := ')') (by decide)

namespace Instruction

variable {i : Instruction}

/-- The text of a complete instruction, in a listing that names no word, never ends with `>`. -/
theorem endsWithoutGt_text (ht : i.truncated = false) :
    EndsWithoutGt (i.text fun _ => "") := by
  unfold text
  rw [if_neg (by simp [ht])]
  split
  · -- a literal ends with its value
    exact (endsWithoutGt_toString_int _).append_left
  · -- a jump ends with the bracket around its target
    exact endsWithoutGt_of_last (c := ')') (by decide)
  · -- a call ends with its index
    exact (endsWithoutGt_toString_nat _).append_left
  · split
    · split
      · exact endsWithoutGt_of_last (c := ']') (by decide)
      · exact endsWithoutGt_name _
    · exact endsWithoutGt_name _

/-- The text of a truncated instruction: its name, and how many of its operand bytes are
present out of how many it takes. -/
theorem text_of_truncated (names : UInt16 → String) (ht : i.truncated = true) :
    i.text names = (Opcode.info i.opcode).name ++ " <truncated: " ++ toString i.operands.length ++
      " of " ++ toString (Opcode.info i.opcode).operandLen ++ " operand bytes>" := by
  simp only [text, ht, if_true]
  rfl

/-- A complete literal prints its name and its value. -/
theorem text_of_value? (names : UInt16 → String) {v : Int32} (hv : i.value? = some v)
    (ht : i.truncated = false) :
    i.text names = (Opcode.info i.opcode).name ++ " " ++ toString v.toInt := by
  simp only [text, ht, hv]
  rfl

/-- A complete jump prints its displacement and, after an arrow, the offset it lands on. -/
theorem text_of_target? (names : UInt16 → String) {t : Int} (hj : Opcode.isJump i.opcode = true)
    (ht : i.truncated = false) (htarget : i.target? = some t) :
    ∃ pre, i.text names = pre ++ " (-> " ++ Hex.upperSigned 4 t ++ ")" := by
  -- a jump's opcode is no literal's, so it has no value
  have hlit : Opcode.isLiteral i.opcode = false := by
    revert hj
    generalize i.opcode = b
    revert b
    decide +kernel
  have hv : i.value? = none := by simp [value?, hlit]
  have hd : i.displacement? = some (Bytes.signed 16 (Bytes.leValue i.operands)) := by
    simp [displacement?, hj, ht]
  simp only [target?, hd, Option.map_some, Option.some.injEq] at htarget
  refine ⟨(Opcode.info i.opcode).name ++ " " ++
    Decimal.signed (Bytes.signed 16 (Bytes.leValue i.operands)), ?_⟩
  simp only [text, ht, hv, hd, htarget]
  rfl

theorem length_eq_zero_iff : i.length = 0 ↔ i.truncated = true := by
  unfold length
  split <;> simp_all

theorem length_of_complete (ht : i.truncated = false) : i.length = 1 + i.operands.length := by
  simp [length, ht]

end Instruction

namespace Code

variable {code : List UInt8} {i : Instruction}

/-! ### Reading one instruction -/

/-- **Read from any offset, the walk starts with the instruction the machine reads there.** -/
theorem head?_decodeFrom_drop (code : List UInt8) (p : Nat) :
    (decodeFrom p (code.drop p)).head? = fetch code p := by
  unfold fetch
  split
  · rename_i h
    rw [h, decodeFrom]
    rfl
  · rename_i b rest h
    rw [h, decodeFrom]
    dsimp only
    split
    · rename_i hlt
      simp [List.take_of_length_le (Nat.le_of_lt hlt), hlt]
    · rename_i hge
      simp only [List.head?_cons, List.length_take, Option.some.injEq, Instruction.mk.injEq,
        true_and]
      rw [eq_comm, decide_eq_false_iff_not]
      omega

/-- **Disassembling one instruction reads what the machine reads**: the text and length of
the instruction there, or the end of the code. -/
theorem disassembleAt_eq_fetch (code : List UInt8) (p : Nat) (names : UInt16 → String) :
    disassembleAt code p names =
      (fetch code p).elim ("<end of code>", 0) fun i => (i.text names, i.length) := by
  rw [disassembleAt_eq, ← head?_decodeFrom_drop]
  cases decodeFrom p (code.drop p) <;> rfl

theorem disassembleAt_of_mem_decode (hi : i ∈ decode code) (names : UInt16 → String) :
    disassembleAt code i.offset names = (i.text names, i.length) := by
  rw [disassembleAt_eq_fetch, fetch_of_mem_decode hi]
  rfl

/-! ### Listings -/

/-- A listing line that reports a truncated instruction: after the offset, the opcode's name and
how many of its operand bytes are present out of how many it takes. -/
def IsTruncationLine (s : String) : Prop :=
  ∃ (off name : String) (present total : Nat), s = off ++ "  " ++ name ++ " <truncated: " ++
    toString present ++ " of " ++ toString total ++ " operand bytes>"

theorem isTruncationLine_line (names : UInt16 → String) (ht : i.truncated = true) :
    IsTruncationLine (i.line names) :=
  ⟨Hex.upper 4 i.offset, (Opcode.info i.opcode).name, i.operands.length,
    (Opcode.info i.opcode).operandLen, by
      rw [Instruction.line, Instruction.text_of_truncated names ht]
      simp only [String.append_assoc]⟩

theorem not_isTruncationLine {s : String} (h : EndsWithoutGt s) : ¬ IsTruncationLine s := by
  rintro ⟨off, name, present, total, rfl⟩
  obtain ⟨c, hc, hne⟩ := h
  rw [String.toList_append, List.getLast?_append_of_ne_nil _ (by decide)] at hc
  have hgt : some c = some '>' := hc.symm.trans (by decide)
  exact hne (Option.some.inj hgt)

/-- **A listing ends with a truncation line exactly when the walk ends with a truncated
instruction.** -/
theorem last_listingLine_iff (code : List UInt8) :
    (∃ s, (listingLines code).getLast? = some s ∧ IsTruncationLine s) ↔
      ∃ i, (decode code).getLast? = some i ∧ i.truncated = true := by
  simp only [listingLines_eq_map, List.getLast?_map, Option.map_eq_some_iff]
  constructor
  · rintro ⟨_, ⟨i, hi, rfl⟩, hline⟩
    refine ⟨i, hi, ?_⟩
    -- a complete instruction's line ends with its text, which has no `>` at the end
    cases ht : i.truncated
    · exact absurd hline (not_isTruncationLine
        (Instruction.endsWithoutGt_text ht).append_left)
    · rfl
  · rintro ⟨i, hi, ht⟩
    exact ⟨_, ⟨i, hi, rfl⟩, isTruncationLine_line _ ht⟩

/-! ### The call list -/

/-- The call list holds the index operands of the walk's complete calls, in order. -/
theorem callTargets_eq (code : List UInt8) :
    callTargets code = ((decode code).filter fun i => i.opcode = Op.call.byte ∧
      i.truncated = false).map fun i => UInt16.ofNat (Bytes.leValue i.operands) := by
  rw [callTargets_eq_filterMap]
  induction decode code with
  | nil => rfl
  | cons i is ih =>
    by_cases h : i.opcode = Op.call.byte ∧ i.truncated = false
    · simp [h, ih, Instruction.callTarget?]
    · have hnone : i.callTarget? = none := by
        simp only [Instruction.callTarget?]
        rw [if_neg (by simpa using h)]
      simp [h, ih, hnone]

end Code

/-! ### The machine at jumps and literals -/

/-- The bytes of the four literal pushes. -/
theorem Op.ofByte?_of_isLiteral {b : UInt8} (h : Opcode.isLiteral b = true) :
    Op.ofByte? b = some .lit ∨ Op.ofByte? b = some .litU8 ∨ Op.ofByte? b = some .litI8 ∨
      Op.ofByte? b = some .litI16 := by
  revert b
  decide +kernel

namespace Machine

variable {sys : Option (SysHandler Id)} {m : Machine} {c : Cursor} {i : Instruction}

/-- Whether a jump opcode goes to its target on a data stack: `JMP` always, `JZ` when the top
cell is zero and `JNZ` when it is not. -/
def JumpTaken (op : UInt8) (data : List Int32) : Prop :=
  op = Op.jmp.byte ∨ (op = Op.jz.byte ∧ data.head? = some 0) ∨
    (op = Op.jnz.byte ∧ ∃ v, data.head? = some v ∧ v ≠ 0)

/-- A taken jump is a jump, with a two-byte displacement. -/
theorem JumpTaken.isJump {op : UInt8} {data : List Int32} (h : JumpTaken op data) :
    Opcode.isJump op = true ∧ Opcode.operandLen op = 2 := by
  rcases h with h | ⟨h, -⟩ | ⟨h, -⟩ <;> subst h <;> exact ⟨rfl, rfl⟩

/-- **A taken jump moves the run to its target**, when the target lies in the word. -/
theorem step_jump_taken {t : Int} (hi : Code.fetch c.word.code c.pc = some i)
    (ht : i.truncated = false) (htaken : JumpTaken i.opcode m.data)
    (hlim : m.config.maxSteps ≤ 0 ∨ (c.steps : Int) < m.config.maxSteps)
    (htarget : i.target? = some t) (h0 : 0 ≤ t) (hend : t ≤ c.word.code.length) :
    ∃ m', Id.run (m.step sys c) = .next m' { c with pc := t.toNat, steps := c.steps + 1 } := by
  obtain ⟨hjump, hwidth⟩ := htaken.isJump
  have hlen : i.operands.length = 2 := (Code.length_operands_of_fetch hi ht).trans hwidth
  -- the machine counts the displacement from the end of the jump, as the walk does
  have hpc : t = ((c.pc + 1 + i.operands.length : Nat) : Int) +
      Bytes.signed 16 (Bytes.leValue i.operands) := by
    simp only [Instruction.target?, Instruction.displacement?, hjump, ht, Bool.not_false,
      Bool.and_self, if_true, Option.map_some, Option.some.injEq, Code.offset_of_fetch hi]
      at htarget
    omega
  rcases htaken with h | ⟨h, hz⟩ | ⟨h, v, hv, hne⟩
  · rw [step_of_fetch hi (by rw [h]; rfl) (by decide) ht hlim]
    refine ⟨m, ?_⟩
    simp only [execute, ↓reduceIte, ← hpc]
    rw [if_neg (by omega)]
  · obtain ⟨rest, hdata⟩ : ∃ rest, m.data = 0 :: rest := by
      cases hd : m.data <;> simp_all
    rw [step_of_fetch hi (by rw [h]; rfl) (by decide) ht hlim]
    refine ⟨{ m with data := rest }, ?_⟩
    simp only [execute, hdata, ← hpc, reduceCtorEq, ↓reduceIte, decide_true, beq_self_eq_true]
    rw [if_neg (by omega)]
  · obtain ⟨rest, hdata⟩ : ∃ rest, m.data = v :: rest := by
      cases hd : m.data <;> simp_all
    rw [step_of_fetch hi (by rw [h]; rfl) (by decide) ht hlim]
    refine ⟨{ m with data := rest }, ?_⟩
    simp only [execute, hdata, ← hpc, reduceCtorEq, ↓reduceIte, hne, decide_false,
      beq_self_eq_true]
    rw [if_neg (by omega)]

/-- **A literal pushes its value**, when the data stack has room: the machine reads the operand
at the literal's own width, which gives the value decoding does. -/
theorem step_literal (hi : Code.fetch c.word.code c.pc = some i)
    (hlit : Opcode.isLiteral i.opcode = true) (ht : i.truncated = false)
    (hlim : m.config.maxSteps ≤ 0 ∨ (c.steps : Int) < m.config.maxSteps)
    (hroom : m.data.length < m.config.stackDepth) :
    Id.run (m.step sys c) = .next { m with data := literalValue i.opcode i.operands :: m.data }
      { c with pc := c.pc + 1 + i.operands.length, steps := c.steps + 1 } := by
  have hpush : ∀ v, m.push v = .ok { m with data := v :: m.data } :=
    fun _ => push_eq_ok.mpr ⟨hroom, rfl⟩
  have hlen := Code.length_operands_of_fetch hi ht
  rcases Op.ofByte?_of_isLiteral hlit with hop | hop | hop | hop <;>
    rw [step_of_fetch hi hop (by decide) ht hlim, ← Op.byte_of_ofByte? hop] <;>
    rw [← Op.byte_of_ofByte? hop] at hlen
  · simp only [execute, hpush, literalValue_lit_eq]
  · -- the byte literals have a single operand byte
    obtain ⟨x, hx⟩ := List.length_eq_one_iff.mp (by rw [hlen]; rfl)
    simp only [execute, hpush, hx, List.headD_cons, literalValue_litU8_eq]
  · obtain ⟨x, hx⟩ := List.length_eq_one_iff.mp (by rw [hlen]; rfl)
    simp only [execute, hpush, hx, List.headD_cons, literalValue_litI8_eq]
  · simp only [execute, hpush, literalValue_litI16_eq]

end Machine

namespace Code

/-- Where a complete jump of `code` goes: to a target that the disassembler's arrow points at
and, when the jump is taken and the target lies in the word, where the machine goes on. -/
def JumpLands (code : List UInt8) (i : Instruction) : Prop :=
  ∃ t, i.target? = some t ∧
    (∃ pre, (disassembleAt code i.offset fun _ => "").1 =
      pre ++ " (-> " ++ Hex.upperSigned 4 t ++ ")") ∧
    ∀ (sys : Option (SysHandler Id)) (m : Machine) (c : Cursor), c.word.code = code →
      c.pc = i.offset → (m.config.maxSteps ≤ 0 ∨ (c.steps : Int) < m.config.maxSteps) →
      Machine.JumpTaken i.opcode m.data → 0 ≤ t → t ≤ code.length →
      ∃ m', Id.run (m.step sys c) = .next m' { c with pc := t.toNat, steps := c.steps + 1 }

/-- What a complete literal of `code` pushes: a value that the disassembler prints and, when
the data stack has room, that the machine pushes before going on past it. -/
def LiteralPushes (code : List UInt8) (i : Instruction) : Prop :=
  ∃ v, i.value? = some v ∧
    (disassembleAt code i.offset fun _ => "").1 =
      (Opcode.info i.opcode).name ++ " " ++ toString v.toInt ∧
    ∀ (sys : Option (SysHandler Id)) (m : Machine) (c : Cursor), c.word.code = code →
      c.pc = i.offset → (m.config.maxSteps ≤ 0 ∨ (c.steps : Int) < m.config.maxSteps) →
      m.data.length < m.config.stackDepth →
      Id.run (m.step sys c) = .next { m with data := v :: m.data }
        { c with pc := i.offset + i.length, steps := c.steps + 1 }

/-- What every walk over `code` agrees on. -/
structure WalksAgree (code : List UInt8) : Prop where
  /-- The machine reads each instruction of the walk at its offset. -/
  fetch : ∀ i ∈ decode code, fetch code i.offset = some i
  /-- Disassembling at an offset of the walk prints the instruction and gives its length, zero
  for a truncated one and otherwise the distance to the next instruction or the end. -/
  disassemble : ∀ i ∈ decode code, ∀ names : UInt16 → String,
    disassembleAt code i.offset names = (i.text names, i.length) ∧
      (i.length = 0 ↔ i.truncated = true) ∧
      (i.truncated = false → IsStart code (i.offset + i.length))
  /-- A listing has one line per instruction of the walk: its offset, then what it prints. -/
  lines : ∀ names : UInt16 → String,
    listingLines code names = (decode code).map fun i => Hex.upper 4 i.offset ++ "  " ++ i.text names
  /-- A listing ends with a truncation line exactly when the walk ends with a truncated
  instruction. -/
  truncation : (∃ s, (listingLines code).getLast? = some s ∧ IsTruncationLine s) ↔
    ∃ i, (decode code).getLast? = some i ∧ i.truncated = true
  /-- The call list holds the index operands of the walk's complete calls, in order. -/
  calls : callTargets code = ((decode code).filter fun i => i.opcode = Op.call.byte ∧
    i.truncated = false).map fun i => UInt16.ofNat (Bytes.leValue i.operands)
  /-- Relocation writes back each instruction of the walk relocated, so relocated code is
  walked at the same offsets, into the relocated instructions. -/
  relocation : ∀ k, relocate k code = (decode code).flatMap (fun i => (i.relocate k).bytes) ∧
    decode (relocate k code) = (decode code).map (Instruction.relocate k)
  jumps : ∀ i ∈ decode code, Opcode.isJump i.opcode = true → i.truncated = false →
    JumpLands code i
  literals : ∀ i ∈ decode code, Opcode.isLiteral i.opcode = true → i.truncated = false →
    LiteralPushes code i

variable {code : List UInt8} {i : Instruction}

theorem jumpLands_of_mem_decode (hi : i ∈ decode code) (hj : Opcode.isJump i.opcode = true)
    (ht : i.truncated = false) : JumpLands code i := by
  obtain ⟨t, htarget⟩ : ∃ t, i.target? = some t := by
    simp [Instruction.target?, Instruction.displacement?, hj, ht]
  refine ⟨t, htarget, ?_, ?_⟩
  · rw [disassembleAt_of_mem_decode hi]
    exact Instruction.text_of_target? _ hj ht htarget
  intro sys m c hcode hpc hlim htaken h0 hend
  have hf : fetch c.word.code c.pc = some i := by
    rw [hcode, hpc]
    exact fetch_of_mem_decode hi
  exact Machine.step_jump_taken hf ht htaken hlim htarget h0 (hcode ▸ hend)

theorem literalPushes_of_mem_decode (hi : i ∈ decode code)
    (hlit : Opcode.isLiteral i.opcode = true) (ht : i.truncated = false) :
    LiteralPushes code i := by
  have hv : i.value? = some (literalValue i.opcode i.operands) := by
    simp [Instruction.value?, hlit, ht]
  refine ⟨_, hv, by rw [disassembleAt_of_mem_decode hi, Instruction.text_of_value? _ hv ht], ?_⟩
  intro sys m c hcode hpc hlim hroom
  have hf : fetch c.word.code c.pc = some i := by
    rw [hcode, hpc]
    exact fetch_of_mem_decode hi
  rw [Machine.step_literal hf hlit ht hlim hroom, Instruction.length_of_complete ht, hpc,
    Nat.add_assoc]

/-- **The walkers agree.** Decoding, the disassembler, listings, the call list, relocation and
the machine all cut `code` at the same instructions: the machine reads the walk's instruction at
each of its offsets, and the disassembler prints it there and steps to the next one; a listing
has a line per instruction headed by its offset, and ends with a truncation line exactly when
the walk ends with a truncated instruction; the call list holds the complete calls' indices in
order; relocation writes each instruction back relocated at its offset; a complete jump lands,
on the machine, at the target the walk gives it and the disassembler's arrow shows; and a
complete literal pushes the value the walk gives it and the disassembler prints. -/
theorem instruction_walks_agree (code : List UInt8) : WalksAgree code where
  fetch _ hi := fetch_of_mem_decode hi
  disassemble i hi names := by
    refine ⟨disassembleAt_of_mem_decode hi names, Instruction.length_eq_zero_iff, fun ht => ?_⟩
    rw [Instruction.length_of_complete ht, ← Nat.add_assoc]
    exact isStart_next hi ht
  lines names := listingLines_eq_map code names
  truncation := last_listingLine_iff code
  calls := callTargets_eq code
  relocation k := ⟨relocate_eq_flatMap k code, decode_relocate k code⟩
  jumps _ hi hj ht := jumpLands_of_mem_decode hi hj ht
  literals _ hi hlit ht := literalPushes_of_mem_decode hi hlit ht

-- a literal whose operand is the byte of `CALL`, then a jump cut off after its opcode
example : listingLines [0x76, 0x50, 0x40] =
    ["0000  LIT_U8 80", "0002  JMP <truncated: 0 of 2 operand bytes>"] := by
  decide +kernel

end Code

end StackLink
