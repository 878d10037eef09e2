import Mathlib
import StackLink.Code.Listing

/-!
# The walks over code are functions of its decoding

`StackLink.Code.decode` reads a code string from the front, instruction by instruction. The
call list, call relocation and the disassembler make walks of their own, by offsets into the
code: each reads the opcode at an offset, steps over it by the length the table gives it, and
stops at an instruction whose operands run past the end. Each is a function of the decoded
instructions:

* `StackLink.Code.callTargets_eq_filterMap`: the call list is the index of every complete call;
* `StackLink.Code.relocate_eq_flatMap`: relocation writes each instruction back relocated;
* `StackLink.Code.disassembleAt_eq`: disassembling at an offset prints the instruction the walk
  reads from there (`StackLink.Instruction.text`) and gives its length;
* `StackLink.Code.listingLines_eq_map`: a listing is one line per decoded instruction.

All four rest on the walk read from an offset (`StackLink.Code.decodeFrom_drop_truncated`,
`StackLink.Code.decodeFrom_drop_complete`): the instruction there, then the walk from its end,
which is the split every other walk makes. Each is proved by induction along its own walk.

The machine reads a literal's operand at the literal's own width, and the value agrees with
the one decoding gives (`StackLink.literalValue_lit_eq` and its siblings).
-/

namespace StackLink

/-! ### What a decoded instruction prints -/

namespace Instruction

/-- What a listing prints for a decoded instruction, from the fields decoding gives it: a
literal's value, a jump's displacement and its target, a call's index and, when `names` knows
it, the word's name, a system call's number and argument bytes, and for a truncated instruction
how many of its operand bytes are present. -/
def text (names : UInt16 → String) (i : Instruction) : String :=
  let info := Opcode.info i.opcode
  if i.truncated then
    s!"{info.name} <truncated: {i.operands.length} of {info.operandLen} operand bytes>"
  else match i.value?, i.displacement?, i.callTarget? with
    | some v, _, _ => s!"{info.name} {v.toInt}"
    | _, some d, _ =>
      info.name ++ " " ++ Decimal.signed d ++ " (-> " ++ Hex.upperSigned 4 (i.offset + 3 + d) ++ ")"
    | _, _, some t =>
      let n := names t
      if n.isEmpty then s!"CALL {t.toNat}" else s!"CALL {t.toNat} ; {n}"
    | _, _, _ =>
      if i.opcode = Op.sys.byte then
        match i.operands with
        | id :: args => s!"SYS {id.toNat} [" ++ Hex.spaced args ++ "]"
        | [] => info.name
      else info.name

/-- The listing line of a decoded instruction: its offset, two blanks and its text. -/
def line (names : UInt16 → String) (i : Instruction) : String :=
  Hex.upper 4 i.offset ++ "  " ++ i.text names

variable {i : Instruction} {k : UInt16}

@[simp] theorem relocate_offset : (i.relocate k).offset = i.offset := by
  unfold relocate; split <;> rfl

@[simp] theorem relocate_opcode : (i.relocate k).opcode = i.opcode := by
  unfold relocate; split <;> rfl

@[simp] theorem relocate_truncated : (i.relocate k).truncated = i.truncated := by
  unfold relocate; split <;> rfl

/-- Only calls are relocated. -/
theorem relocate_of_ne_call (h : i.opcode ≠ Op.call.byte) : i.relocate k = i := by
  simp [relocate, callTarget?, h]

theorem relocate_of_truncated (h : i.truncated = true) : i.relocate k = i := by
  simp [relocate, callTarget?, h]

end Instruction

@[simp] theorem Bytes.length_le16 (n : Nat) : (Bytes.le16 n).length = 2 := rfl

@[simp] theorem Bytes.length_le32 (n : Nat) : (Bytes.le32 n).length = 4 := rfl

theorem Opcode.operandLen_call : Opcode.operandLen Op.call.byte = 2 := rfl

/-- A jump carries a two-byte displacement. -/
theorem Opcode.operandLen_of_isJump {b : UInt8} (h : Opcode.isJump b = true) :
    Opcode.operandLen b = 2 := by
  revert b
  decide +kernel

/-- The two bytes of a 16-bit field are written back unchanged. -/
theorem Bytes.le16_leValue (lo hi : UInt8) :
    Bytes.le16 (Bytes.leValue [lo, hi] % 65536) = [lo, hi] := by
  have hlo := lo.toNat_lt
  have hhi := hi.toNat_lt
  simp only [Bytes.le16, Bytes.leValue, List.cons.injEq, and_true]
  constructor <;> apply UInt8.toNat_inj.mp <;> simp only [UInt8.toNat_ofNat'] <;> omega

/-- An instruction with its full operands is its own relocation by zero: a call's index is read
as sixteen bits and written back. -/
theorem Instruction.relocate_zero {i : Instruction}
    (hi : i.truncated = false → i.operands.length = Opcode.operandLen i.opcode) :
    i.relocate 0 = i := by
  unfold Instruction.relocate Instruction.callTarget?
  by_cases hc : i.opcode = Op.call.byte ∧ i.truncated = false
  · obtain ⟨hop, ht⟩ := hc
    -- a complete call has exactly its two index bytes
    have hlen : i.operands.length = 2 := by
      rw [hi ht, hop]
      rfl
    obtain ⟨lo, hb, hops⟩ : ∃ a b, i.operands = [a, b] := by
      match i.operands, hlen with
      | [a, b], _ => exact ⟨a, b, rfl⟩
    obtain ⟨off, op, ops, tr⟩ := i
    simp only at hop ht hops
    subst hop ht hops
    simp [Bytes.le16_leValue]
  · simp only [Bool.and_eq_true, decide_eq_true_eq, Bool.not_eq_eq_eq_not, Bool.not_true] at hc ⊢
    rw [if_neg hc]

/-! ### Decoding read from an offset -/

namespace Code

variable {code : List UInt8} {pc : Nat}

/-- **The walk loses no byte**: the instructions of a code string, written out again, are the
code string, a truncated last one included. -/
theorem decodeFrom_bytes (offset : Nat) (code : List UInt8) :
    (decodeFrom offset code).flatMap Instruction.bytes = code := by
  fun_induction decodeFrom offset code with
  | case1 => simp
  | case2 off b rest n h => simp [Instruction.bytes]
  | case3 off b rest n h ih => simp [Instruction.bytes, ih]

/-- A complete instruction of the walk has as many operands as the table gives its opcode. -/
theorem operands_decodeFrom {offset : Nat} {code : List UInt8} {i : Instruction}
    (hi : i ∈ decodeFrom offset code) (ht : i.truncated = false) :
    i.operands.length = Opcode.operandLen i.opcode := by
  fun_induction decodeFrom offset code with
  | case1 => simp at hi
  | case2 off b rest n h =>
    simp at hi
    subst hi
    simp at ht
  | case3 off b rest n h ih =>
    rcases List.mem_cons.mp hi with rfl | hi
    · simp; omega
    · exact ih hi

theorem decodeFrom_drop_of_le (h : code.length ≤ pc) : decodeFrom pc (code.drop pc) = [] := by
  rw [List.drop_of_length_le h, decodeFrom]

/-- Read from an offset whose instruction runs past the end, the walk is that instruction,
truncated. -/
theorem decodeFrom_drop_truncated (h : pc < code.length)
    (ht : code.length < pc + Opcode.instructionLen code[pc]) :
    decodeFrom pc (code.drop pc) = [⟨pc, code[pc], code.drop (pc + 1), true⟩] := by
  rw [List.drop_eq_getElem_cons h, decodeFrom]
  simp only [Opcode.instructionLen] at ht
  rw [if_pos (by simp only [List.length_drop]; omega)]

/-- Read from an offset whose instruction is complete, the walk is that instruction and then
the walk from its end. -/
theorem decodeFrom_drop_complete (h : pc < code.length)
    (hc : pc + Opcode.instructionLen code[pc] ≤ code.length) :
    decodeFrom pc (code.drop pc) =
      ⟨pc, code[pc], (code.drop (pc + 1)).take (Opcode.operandLen code[pc]), false⟩ ::
        decodeFrom (pc + Opcode.instructionLen code[pc])
          (code.drop (pc + Opcode.instructionLen code[pc])) := by
  rw [List.drop_eq_getElem_cons h, decodeFrom]
  simp only [Opcode.instructionLen] at hc ⊢
  rw [if_neg (by simp only [List.length_drop]; omega), List.drop_drop, Nat.add_assoc]

/-- The bytes before an instruction's end: those before it, its opcode and its operands. -/
theorem take_instruction_end (h : pc < code.length) (n : Nat) :
    code.take (pc + (1 + n)) = code.take pc ++ code[pc] :: (code.drop (pc + 1)).take n := by
  rw [List.take_add, List.drop_eq_getElem_cons h, Nat.add_comm 1 n, List.take_succ_cons]

/-! ### The call list -/

/-- The call list from an offset holds the index of every complete call the walk finds there. -/
theorem callTargetsFrom_eq (code : List UInt8) (pc : Nat) :
    callTargetsFrom code pc =
      (decodeFrom pc (code.drop pc)).filterMap Instruction.callTarget? := by
  fun_induction callTargetsFrom code pc with
  | case1 pc h op next ht =>
    rw [decodeFrom_drop_truncated h ht]
    simp [Instruction.callTarget?]
  | case2 pc h op next hc hcall ih =>
    simp only [next, op] at hc hcall ih ⊢
    rw [decodeFrom_drop_complete h (Nat.le_of_not_lt hc), List.filterMap_cons, ih, hcall]
    simp [Instruction.callTarget?, Opcode.operandLen_call]
  | case3 pc h op next hc hcall ih =>
    simp only [next, op] at hc hcall ih ⊢
    rw [decodeFrom_drop_complete h (Nat.le_of_not_lt hc), List.filterMap_cons, ih]
    simp [Instruction.callTarget?, hcall]
  | case4 pc h => rw [decodeFrom_drop_of_le (Nat.le_of_not_lt h), List.filterMap_nil]

/-- **The call list is the index of every complete call of the walk**, in order. -/
theorem callTargets_eq_filterMap (code : List UInt8) :
    callTargets code = (decode code).filterMap Instruction.callTarget? :=
  callTargetsFrom_eq code 0

/-! ### Relocation -/

/-- Writing a 16-bit field inside the bytes replaces its two bytes and keeps the rest. -/
theorem Bytes.writeLE16_eq {bs : List UInt8} {off : Nat} (h : off + 2 ≤ bs.length) (n : Nat) :
    Bytes.writeLE16 bs off n = bs.take off ++ Bytes.le16 n ++ bs.drop (off + 2) := by
  obtain ⟨a, b, rest, hab⟩ : ∃ a b rest, bs.drop off = a :: b :: rest := by
    match hd : bs.drop off with
    | a :: b :: rest => exact ⟨a, b, rest, rfl⟩
    | [] | [_] => have hl := congrArg List.length hd; simp at hl; omega
  have hoff : (bs.take off).length = off := by simp; omega
  have hbs : bs = bs.take off ++ a :: b :: rest := by rw [← hab, List.take_append_drop]
  have hrest : bs.drop (off + 2) = rest := by rw [← List.drop_drop, hab]; rfl
  rw [hrest, hbs, Bytes.writeLE16, List.take_left' hoff]
  simp [hoff, Bytes.le16]

/-- Relocation from an offset leaves the bytes before it and writes each instruction the walk
finds there back relocated. -/
theorem relocateFrom_eq (delta : UInt16) (code : List UInt8) (pc : Nat) :
    relocateFrom delta code pc =
      code.take pc ++ (decodeFrom pc (code.drop pc)).flatMap fun i => (i.relocate delta).bytes := by
  fun_induction relocateFrom delta code pc with
  | case1 code pc h op next ht =>
    rw [decodeFrom_drop_truncated h ht, List.flatMap_singleton,
      Instruction.relocate_of_truncated rfl, Instruction.bytes, ← List.drop_eq_getElem_cons h,
      List.take_append_drop]
  | case2 code pc h op next hc hcall idx ih =>
    simp only [next, op, idx] at hc hcall ih ⊢
    -- the call's two index bytes are written over, and the walk goes on behind them
    have hops : Opcode.operandLen code[pc] = 2 := by rw [hcall]; rfl
    have hlen : Opcode.instructionLen code[pc] = 1 + 2 := by rw [Opcode.instructionLen, hops]
    have hfit : pc + 1 + 2 ≤ code.length := by omega
    set v := (UInt16.ofNat (Bytes.leValue ((code.drop (pc + 1)).take 2)) + delta).toNat with hv
    have hhead : (code.take (pc + 1) ++ Bytes.le16 v).length = pc + (1 + 2) := by simp; omega
    have hrel : (Instruction.mk pc code[pc] ((code.drop (pc + 1)).take 2) false).relocate delta =
        ⟨pc, code[pc], Bytes.le16 v, false⟩ := by
      simp [Instruction.relocate, Instruction.callTarget?, hcall, hv]
    rw [ih, hlen, Bytes.writeLE16_eq hfit, Nat.add_assoc, List.take_left' hhead,
      List.drop_left' hhead, decodeFrom_drop_complete h (by omega), List.flatMap_cons, hlen, hops,
      hrel, Instruction.bytes, ← List.take_concat_get' code pc h]
    simp only [List.append_assoc, List.cons_append, List.nil_append]
  | case3 code pc h op next hc hcall ih =>
    simp only [next, op] at hc hcall ih ⊢
    rw [ih, decodeFrom_drop_complete h (Nat.le_of_not_lt hc), List.flatMap_cons,
      Instruction.relocate_of_ne_call hcall, Instruction.bytes, Opcode.instructionLen,
      take_instruction_end h, List.append_assoc, List.cons_append]
  | case4 code pc h =>
    rw [decodeFrom_drop_of_le (Nat.le_of_not_lt h), List.flatMap_nil, List.append_nil,
      List.take_of_length_le (Nat.le_of_not_lt h)]

/-- **Relocation writes each decoded instruction back relocated.** -/
theorem relocate_eq_flatMap (k : UInt16) (code : List UInt8) :
    relocate k code = (decode code).flatMap fun i => (i.relocate k).bytes := by
  unfold relocate
  split
  · -- by zero nothing is walked, and every instruction is its own relocation by zero
    rename_i hk
    subst hk
    conv => lhs; rw [← decodeFrom_bytes 0 code]
    refine List.flatMap_congr fun i hi => ?_
    rw [Instruction.relocate_zero (operands_decodeFrom hi)]
  · rw [relocateFrom_eq, List.take_zero, List.drop_zero, List.nil_append]
    rfl

/-! ### The disassembler -/

/-- Disassembling at an offset whose instruction runs past the end prints it as truncated, and
gives the length zero. -/
theorem disassembleAt_truncated (h : pc < code.length)
    (ht : code.length < pc + Opcode.instructionLen code[pc]) (names : UInt16 → String) :
    disassembleAt code pc names =
      ((⟨pc, code[pc], code.drop (pc + 1), true⟩ : Instruction).text names, 0) := by
  simp only [Opcode.instructionLen, Opcode.operandLen] at ht
  simp only [disassembleAt, dif_pos h, if_pos ht, Instruction.text, if_true, List.length_drop,
    Nat.sub_sub]

/-- Disassembling at an offset whose instruction is complete prints that instruction, and
gives its length. -/
theorem disassembleAt_complete (h : pc < code.length)
    (hc : pc + Opcode.instructionLen code[pc] ≤ code.length) (names : UInt16 → String) :
    disassembleAt code pc names =
      ((⟨pc, code[pc], (code.drop (pc + 1)).take (Opcode.operandLen code[pc]), false⟩ :
        Instruction).text names, Opcode.instructionLen code[pc]) := by
  have hlen : ((code.drop (pc + 1)).take (Opcode.operandLen code[pc])).length =
      Opcode.operandLen code[pc] := by
    simp only [Opcode.instructionLen] at hc
    simp only [List.length_take, List.length_drop]
    omega
  simp only [Opcode.instructionLen, Opcode.operandLen] at hc hlen
  simp only [disassembleAt, dif_pos h, if_neg (Nat.not_lt.mpr hc), Opcode.instructionLen,
    Opcode.operandLen]
  generalize code[pc] = op at hlen ⊢
  generalize (code.drop (pc + 1)).take (Opcode.info op).operandLen = ops at hlen ⊢
  -- the field decoding gives the instruction decides how it prints, in the disassembler's order
  by_cases hlit : Opcode.isLiteral op = true
  · rw [if_pos hlit]
    simp [Instruction.text, Instruction.value?, hlit]
  rw [if_neg hlit]
  have hv : (Instruction.mk pc op ops false).value? = none := by simp [Instruction.value?, hlit]
  by_cases hjump : Opcode.isJump op = true
  · -- a jump's target is its end, three bytes on, plus the displacement
    have h2 := Opcode.operandLen_of_isJump hjump
    simp only [Opcode.operandLen] at h2
    rw [if_pos hjump, h2]
    simp [Instruction.text, hv, Instruction.displacement?, hjump]
  rw [if_neg hjump]
  have hd : (Instruction.mk pc op ops false).displacement? = none := by
    simp [Instruction.displacement?, hjump]
  by_cases hcall : op = Op.call.byte
  · have hct : (Instruction.mk pc op ops false).callTarget? =
        some (UInt16.ofNat (Bytes.leValue ops)) := by
      simp [Instruction.callTarget?, hcall]
    rw [if_pos hcall]
    simp [Instruction.text, hv, hd, hct]
  rw [if_neg hcall]
  have hct : (Instruction.mk pc op ops false).callTarget? = none := by
    simp [Instruction.callTarget?, hcall]
  by_cases hsys : op = Op.sys.byte
  · -- a complete system call has its number and its argument bytes
    obtain ⟨id, args, rfl⟩ : ∃ id args, ops = id :: args := by
      rw [hsys] at hlen
      match ops, hlen with
      | id :: args, _ => exact ⟨id, args, rfl⟩
    rw [if_pos hsys]
    simp only [Instruction.text, hv, hd, hct, Bool.false_eq_true, if_false, if_pos hsys]
    rfl
  · rw [if_neg hsys]
    simp only [Instruction.text, hv, hd, hct, Bool.false_eq_true, if_false, if_neg hsys]

/-- **Disassembling at an offset prints the instruction the walk reads from there**, and gives
its length; past the end it reports the end of the code. -/
theorem disassembleAt_eq (code : List UInt8) (pc : Nat) (names : UInt16 → String) :
    disassembleAt code pc names =
      match decodeFrom pc (code.drop pc) with
      | [] => ("<end of code>", 0)
      | i :: _ => (i.text names, i.length) := by
  by_cases h : pc < code.length
  · by_cases ht : code.length < pc + Opcode.instructionLen code[pc]
    · rw [disassembleAt_truncated h ht, decodeFrom_drop_truncated h ht]
      rfl
    · have hc := Nat.le_of_not_lt ht
      rw [disassembleAt_complete h hc, decodeFrom_drop_complete h hc]
      simp only [Opcode.instructionLen] at hc ⊢
      simp only [Instruction.length, Bool.false_eq_true, if_false, List.length_take,
        List.length_drop]
      congr 2
      omega
  · rw [decodeFrom_drop_of_le (Nat.le_of_not_lt h)]
    simp [disassembleAt, h]

/-- The listing from an offset is one line per instruction the walk reads from there. -/
theorem linesFrom_eq (code : List UInt8) (names : UInt16 → String) (pc : Nat) :
    linesFrom code names pc = (decodeFrom pc (code.drop pc)).map (Instruction.line names) := by
  fun_induction linesFrom code names pc with
  | case1 pc h r line hz =>
    -- a length of zero is a truncated instruction, the last of the walk
    by_cases ht : code.length < pc + Opcode.instructionLen code[pc]
    · simp only [r, line, disassembleAt_truncated h ht, decodeFrom_drop_truncated h ht]
      rfl
    · simp only [r, disassembleAt_complete h (Nat.le_of_not_lt ht), Opcode.instructionLen] at hz
      omega
  | case2 pc h r line hz ih =>
    by_cases ht : code.length < pc + Opcode.instructionLen code[pc]
    · simp [r, disassembleAt_truncated h ht] at hz
    · have hc := Nat.le_of_not_lt ht
      simp only [r, line, disassembleAt_complete h hc] at ih ⊢
      rw [ih, decodeFrom_drop_complete h hc, List.map_cons]
      rfl
  | case3 pc h => rw [decodeFrom_drop_of_le (Nat.le_of_not_lt h), List.map_nil]

/-- **A listing is one line per decoded instruction.** -/
theorem listingLines_eq_map (code : List UInt8) (names : UInt16 → String) :
    listingLines code names = (decode code).map (Instruction.line names) :=
  linesFrom_eq code names 0

end Code

/-! ### Literal values at the machine's widths -/

namespace Bytes

/-- The two's-complement reading of `k + 1` bits lies in `-2^k … 2^k - 1`. -/
theorem signed_bounds (k n : Nat) :
    -(Nat.pow 2 k : Int) ≤ signed (k + 1) n ∧ signed (k + 1) n < Nat.pow 2 k := by
  have hk : Nat.pow 2 (k + 1) = 2 * Nat.pow 2 k := by
    simp only [Nat.pow_eq, Nat.pow_succ]; omega
  have hmod : n % Nat.pow 2 (k + 1) < Nat.pow 2 (k + 1) :=
    Nat.mod_lt _ (by simp only [Nat.pow_eq]; positivity)
  simp only [signed, Nat.add_sub_cancel]
  split <;> push_cast <;> omega

/-- A reading of at most 32 bits is a cell as it stands. -/
theorem bmod_signed {k : Nat} (hk : k ≤ 31) (n : Nat) :
    (signed (k + 1) n).bmod Int32.size = signed (k + 1) n := by
  obtain ⟨hlo, hhi⟩ := signed_bounds k n
  have hpow : Nat.pow 2 k ≤ 2147483648 := by
    simpa using Nat.pow_le_pow_right (n := 2) (by decide) hk
  apply Int.bmod_eq_of_le <;> simp only [Int32.size] <;> omega

/-- The two's-complement reading of `k + 1` bits is the balanced remainder modulo `2^(k+1)`,
which is how a fixed-width signed integer reads its bits. -/
theorem signed_eq_bmod (k n : Nat) : signed (k + 1) n = (n : Int).bmod (Nat.pow 2 (k + 1)) := by
  have hk : Nat.pow 2 (k + 1) = 2 * Nat.pow 2 k := by simp only [Nat.pow_eq, Nat.pow_succ]; omega
  have hpos : 0 < Nat.pow 2 k := by simp only [Nat.pow_eq]; positivity
  have hhalf : (((2 * Nat.pow 2 k : Nat) : Int) + 1) / 2 = Nat.pow 2 k := by push_cast; omega
  have hlt := Nat.mod_lt n (show 0 < 2 * Nat.pow 2 k by omega)
  simp only [signed, Nat.add_sub_cancel, Int.bmod, hk, hhalf, ← Int.natCast_mod]
  split <;> split <;> omega

end Bytes

/-- `LIT` pushes its four bytes read as a 32-bit word. -/
theorem literalValue_lit_eq (ops : List UInt8) :
    literalValue Op.lit.byte ops = (UInt32.ofNat (Bytes.leValue ops)).toInt32 := by
  apply Int32.toInt_inj.mp
  simp only [UInt32.toInt32_ofNat', Int32.toInt_ofNat']
  simp [literalValue, Op.byte, Bytes.signed_eq_bmod 31]

/-- `LIT_U8` pushes its byte as an unsigned number. -/
theorem literalValue_litU8_eq (x : UInt8) :
    literalValue Op.litU8.byte [x] = Int32.ofNat x.toNat := by
  apply Int32.toInt_inj.mp
  simp only [Int32.toInt_ofNat']
  simp [literalValue, Op.byte, Bytes.signed_eq_bmod 31, Bytes.leValue]

/-- `LIT_I8` pushes its byte as a signed byte. -/
theorem literalValue_litI8_eq (x : UInt8) :
    literalValue Op.litI8.byte [x] = x.toInt8.toInt32 := by
  apply Int32.toInt_inj.mp
  rw [← UInt8.ofNat_toNat (x := x), UInt8.toInt8_ofNat']
  simp only [Int8.toInt_toInt32, Int8.toInt_ofNat', UInt8.ofNat_toNat]
  have hl : literalValue Op.litI8.byte [x] = Int32.ofInt (Bytes.signed 8 x.toNat) := by
    simp [literalValue, Op.byte, Bytes.leValue]
  rw [hl, Int32.toInt_ofInt, Bytes.bmod_signed (k := 7) (by omega), Bytes.signed_eq_bmod 7]

/-- `LIT_I16` pushes its two bytes as a signed 16-bit number. -/
theorem literalValue_litI16_eq (ops : List UInt8) :
    literalValue Op.litI16.byte ops = (UInt16.ofNat (Bytes.leValue ops)).toInt16.toInt32 := by
  apply Int32.toInt_inj.mp
  simp only [UInt16.toInt16_ofNat', Int16.toInt_toInt32, Int16.toInt_ofNat']
  have hl : literalValue Op.litI16.byte ops = Int32.ofInt (Bytes.signed 16 (Bytes.leValue ops)) := by
    simp [literalValue, Op.byte]
  rw [hl, Int32.toInt_ofInt, Bytes.bmod_signed (k := 15) (by omega), Bytes.signed_eq_bmod 15]

end StackLink
