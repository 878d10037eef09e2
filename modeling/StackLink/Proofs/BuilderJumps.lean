import Mathlib
import StackLink.Proofs.Literals

/-!
# Builder scripts: one instruction per call, and jumps that land

A program assembles code through a builder: it emits instructions one call at a time, writes a
forward jump with a placeholder displacement, and patches the placeholder once the target is
known, possibly long after other code was appended. `StackLink.Builder.Call` names the calls, and
`StackLink.Builder.Session` runs them while keeping a record of which call emitted which
instruction and which placeholders the jumps returned.

**Built code decodes call by call, and jumps land** (`StackLink.Builder.built_code_decodes_and_jumps_land`):
for every script that emits bare opcodes without operands, gives every other opcode exactly its
operand field, writes jumps only with `JMP`, `JZ` and `JNZ`, and patches only placeholders that
its jumps returned, every call succeeds; the walk over the code finds one complete instruction
per emitting call, in call order, each at the offset the call wrote it at; patching a
placeholder `p` to a target within sixteen signed bits of the jump's end changes only the bytes
`p` and `p + 1`, after which the jump at `p - 1` has that target; and a loop jump to a start
within that range is appended as one `JMP` with that target.

The facts behind it:

| fact | lemma |
|---|---|
| instructions laid end to end are read back as laid | `StackLink.Code.decodeFrom_flatMap_bytes` |
| an emitting call appends one complete instruction | `StackLink.Builder.Call.run_of_emits` |
| a patch rewrites exactly the jump's operand field | `StackLink.Builder.patchJumpTo_jump` |
| a loop lands on its start | `StackLink.Builder.emitLoop_lands` |
| every step of a script keeps the layout | `StackLink.Builder.Session.Inv.step` |
-/

namespace StackLink

@[simp] theorem Instruction.length_bytes (i : Instruction) :
    i.bytes.length = i.operands.length + 1 :=
  List.length_cons

/-! ### Instructions laid end to end -/

namespace Code

/-- Instructions laid end to end from offset `off`: each complete, with the whole operand field
of its opcode, and each starting where the one before it ends. -/
def Abutting : Nat → List Instruction → Prop
  | _, [] => True
  | off, i :: is => i.offset = off ∧ i.truncated = false ∧
      i.operands.length = Opcode.operandLen i.opcode ∧ Abutting (off + 1 + i.operands.length) is

/-- **Instructions laid end to end are read back as they were laid**, and the walk goes on
after them. -/
theorem decodeFrom_flatMap_bytes {off : Nat} {is : List Instruction} (h : Abutting off is)
    (rest : List UInt8) :
    decodeFrom off (is.flatMap Instruction.bytes ++ rest) =
      is ++ decodeFrom (off + (is.flatMap Instruction.bytes).length) rest := by
  induction is generalizing off with
  | nil => simp
  | cons i is ih =>
    obtain ⟨hoff, ht, hlen, hrest⟩ := h
    obtain ⟨o, op, ops, tr⟩ := i
    simp only at hoff ht hlen hrest
    subst hoff ht
    have hend : o + (op :: ops ++ is.flatMap Instruction.bytes).length =
        o + 1 + ops.length + (is.flatMap Instruction.bytes).length := by
      simp only [List.cons_append, List.length_cons, List.length_append]
      omega
    rw [List.flatMap_cons, List.append_assoc, Instruction.bytes,
      decodeFrom_instruction_append o hlen, ih hrest, hend]
    rfl

theorem abutting_append_singleton {off : Nat} {is : List Instruction} {i : Instruction} :
    Abutting off (is ++ [i]) ↔ Abutting off is ∧
      i.offset = off + (is.flatMap Instruction.bytes).length ∧ i.truncated = false ∧
      i.operands.length = Opcode.operandLen i.opcode := by
  induction is generalizing off with
  | nil => simp [Abutting]
  | cons j is ih =>
    simp only [List.cons_append, Abutting, ih, List.flatMap_cons, List.length_append,
      Instruction.length_bytes]
    constructor
    · rintro ⟨h1, h2, h3, h4, h5, h6, h7⟩
      exact ⟨⟨h1, h2, h3, h4⟩, by omega, h6, h7⟩
    · rintro ⟨⟨h1, h2, h3, h4⟩, h5, h6, h7⟩
      exact ⟨h1, h2, h3, h4, by omega, h6, h7⟩

/-- An instruction laid after others starts where they end. -/
theorem Abutting.offset_eq {off : Nat} {pre post : List Instruction} {i : Instruction}
    (h : Abutting off (pre ++ i :: post)) : i.offset = off + (pre.flatMap Instruction.bytes).length := by
  induction pre generalizing off with
  | nil => simpa [Abutting] using h.1
  | cons j pre ih =>
    obtain ⟨-, -, -, hrest⟩ := h
    rw [ih hrest]
    simp only [List.flatMap_cons, List.length_append, Instruction.length_bytes]
    omega

/-- New operands of the same length keep instructions laid end to end. -/
theorem Abutting.replace {off : Nat} {pre post : List Instruction} {i : Instruction}
    {d : List UInt8} (h : Abutting off (pre ++ i :: post)) (hd : d.length = i.operands.length) :
    Abutting off (pre ++ { i with operands := d } :: post) := by
  induction pre generalizing off with
  | nil =>
    obtain ⟨h1, h2, h3, h4⟩ := h
    exact ⟨h1, h2, hd.trans h3, by rwa [hd]⟩
  | cons j pre ih =>
    obtain ⟨h1, h2, h3, h4⟩ := h
    exact ⟨h1, h2, h3, ih h4⟩

/-- The bytes of instructions one of which has new operands of the same length: the old bytes
with the operand field overwritten. -/
theorem flatMap_bytes_replace (pre post : List Instruction) (i : Instruction) (d : List UInt8) :
    (pre ++ { i with operands := d } :: post).flatMap Instruction.bytes =
      ((pre ++ i :: post).flatMap Instruction.bytes).take ((pre.flatMap Instruction.bytes).length + 1) ++ d ++
        ((pre ++ i :: post).flatMap Instruction.bytes).drop
          ((pre.flatMap Instruction.bytes).length + 1 + i.operands.length) := by
  -- the old bytes are `A ++ [opcode] ++ operands ++ B`, the new ones the same with `d`
  have hold : (pre ++ i :: post).flatMap Instruction.bytes = pre.flatMap Instruction.bytes ++
      [i.opcode] ++ i.operands ++ post.flatMap Instruction.bytes := by
    simp [Instruction.bytes]
  have hnew : (pre ++ { i with operands := d } :: post).flatMap Instruction.bytes =
      pre.flatMap Instruction.bytes ++ [i.opcode] ++ d ++ post.flatMap Instruction.bytes := by
    simp [Instruction.bytes]
  rw [hold, hnew, List.drop_left' (by simp only [List.length_append, List.length_singleton]),
    List.append_assoc _ i.operands, List.take_left' (by simp)]

/-- Complete instructions read throughout, with one more complete instruction appended: the walk
reads what it read before, and then the new instruction at the old end. -/
theorem decode_append_instruction {code : List UInt8} (h : Abutting 0 (decode code))
    {op : UInt8} {ops : List UInt8} (hlen : ops.length = Opcode.operandLen op) :
    decode (code ++ op :: ops) = decode code ++ [⟨code.length, op, ops, false⟩] := by
  have hcode : (decode code).flatMap Instruction.bytes = code := decodeFrom_bytes 0 code
  have hwalk := decodeFrom_flatMap_bytes h (op :: ops)
  rw [hcode, Nat.zero_add] at hwalk
  have hlast := decodeFrom_instruction_append code.length hlen []
  rw [List.append_nil] at hlast
  rw [decode, hwalk, hlast, decodeFrom]

theorem abutting_append_instruction {code : List UInt8} (h : Abutting 0 (decode code))
    {op : UInt8} {ops : List UInt8} (hlen : ops.length = Opcode.operandLen op) :
    Abutting 0 (decode (code ++ op :: ops)) := by
  have hcode : (decode code).flatMap Instruction.bytes = code := decodeFrom_bytes 0 code
  rw [decode_append_instruction h hlen, abutting_append_singleton, hcode]
  exact ⟨h, by simp, rfl, hlen⟩

/-- Every instruction laid end to end is complete, with its whole operand field. -/
theorem Abutting.complete {off : Nat} {is : List Instruction} (h : Abutting off is)
    {i : Instruction} (hi : i ∈ is) :
    i.truncated = false ∧ i.operands.length = Opcode.operandLen i.opcode := by
  induction is generalizing off with
  | nil => simp at hi
  | cons j is ih =>
    obtain ⟨-, h2, h3, h4⟩ := h
    rcases List.mem_cons.mp hi with rfl | hi
    · exact ⟨h2, h3⟩
    · exact ih h4 hi

end Code

/-- Where a complete jump lands when its displacement is written as the low sixteen bits of a
signed number that fits them: the jump's end plus that number. -/
theorem Instruction.target?_le16 (o : Nat) {op : UInt8} (hj : Opcode.isJump op = true) {δ : Int}
    (h0 : -32768 ≤ δ) (h1 : δ ≤ 32767) :
    (⟨o, op, Bytes.le16 (UInt16.ofInt δ).toNat, false⟩ : Instruction).target? = some (o + 3 + δ) := by
  simp [Instruction.target?, Instruction.displacement?, hj, Bytes.leValue_le16 (UInt16.toNat_lt _),
    Bytes.signed_ofInt16 h0 h1]

/-- Where an instruction stands and what it is: its offset and its opcode. -/
def Instruction.site (i : Instruction) : Nat × UInt8 := (i.offset, i.opcode)

namespace Code

/-- An instruction of code laid out end to end splits it: the instructions before it, it, and
those after it, the instruction starting where the bytes of those before it end. -/
theorem split_of_mem {code : List UInt8} (habut : Abutting 0 (decode code)) {i : Instruction}
    (hi : i ∈ decode code) :
    ∃ pre post, decode code = pre ++ i :: post ∧
      code = (pre ++ i :: post).flatMap Instruction.bytes ∧
      i.offset = (pre.flatMap Instruction.bytes).length := by
  obtain ⟨pre, post, hsplit⟩ := List.append_of_mem hi
  refine ⟨pre, post, hsplit, ?_, (Abutting.offset_eq (hsplit ▸ habut)).trans (Nat.zero_add _)⟩
  rw [← hsplit]
  exact (decodeFrom_bytes 0 code).symm

/-- A complete instruction of code laid out end to end ends within the code. -/
theorem end_le_length {code : List UInt8} (habut : Abutting 0 (decode code)) {i : Instruction}
    (hi : i ∈ decode code) : i.offset + 1 + i.operands.length ≤ code.length := by
  obtain ⟨pre, post, -, hcode, hoff⟩ := split_of_mem habut hi
  rw [hoff]
  conv => rhs; rw [hcode]
  simp only [List.flatMap_append, List.flatMap_cons, List.length_append, Instruction.length_bytes]
  omega

/-- Complete instructions laid end to end from the start are the walk of their bytes. -/
theorem decode_flatMap_bytes {is : List Instruction} (h : Abutting 0 is) :
    decode (is.flatMap Instruction.bytes) = is := by
  have hwalk := decodeFrom_flatMap_bytes h []
  rw [List.append_nil] at hwalk
  rw [decode, hwalk, decodeFrom, List.append_nil]

end Code

/-! ### Patching a jump -/

namespace Builder

/-- A patch with room for its two bytes writes, over them, the displacement from the
placeholder's end to the target. -/
theorem patchJumpTo_of_le {b : Builder} {p : Nat} (h : p + 2 ≤ b.code.length) (t : Int) :
    b.patchJumpTo p t = .ok { code := (b.code.take p ++
      Bytes.le16 (UInt16.ofInt (t - ((p : Int) + 2))).toNat ++ b.code.drop (p + 2)) } := by
  unfold patchJumpTo
  rw [if_neg (by omega), if_neg (by omega)]
  simp

/-- Overwriting two bytes at `p` changes no other byte. -/
theorem getElem?_overwrite {code d : List UInt8} {p k : Nat} (h : p + 2 ≤ code.length)
    (hd : d.length = 2) (hk : k ≠ p) (hk' : k ≠ p + 1) :
    (code.take p ++ d ++ code.drop (p + 2))[k]? = code[k]? := by
  rcases Nat.lt_or_ge k p with hlt | hge
  · rw [List.append_assoc, List.getElem?_append_left (by simp; omega),
      List.getElem?_take_of_lt hlt]
  · rw [List.getElem?_append_right (by simp; omega), List.getElem?_drop]
    congr 1
    simp only [List.length_append, List.length_take, hd]
    omega

/-- **A patch rewrites exactly the jump's operand field.** In code laid out as complete
instructions, patching the placeholder just after a jump's opcode gives the same instructions
with the jump's displacement replaced. -/
theorem patchJumpTo_jump {b : Builder} (habut : Code.Abutting 0 (Code.decode b.code))
    {i : Instruction} (hi : i ∈ Code.decode b.code) (hj : Opcode.isJump i.opcode = true)
    (t : Int) :
    ∃ pre post, Code.decode b.code = pre ++ i :: post ∧
      b.patchJumpTo (i.offset + 1 : Nat) t = .ok { code := ((pre ++ { i with operands :=
        (Bytes.le16 (UInt16.ofInt (t - (((i.offset + 1 : Nat) : Int) + 2))).toNat) } :: post).flatMap
          Instruction.bytes) } := by
  obtain ⟨pre, post, hsplit, hcode, hoff⟩ := Code.split_of_mem habut hi
  have hlen : i.operands.length = 2 :=
    (habut.complete hi).2.trans (Opcode.operandLen_of_isJump hj)
  have hroom : i.offset + 1 + 2 ≤ b.code.length := hlen ▸ Code.end_le_length habut hi
  refine ⟨pre, post, hsplit, ?_⟩
  rw [patchJumpTo_of_le hroom, Code.flatMap_bytes_replace, ← hcode, hoff, hlen]

/-- The patched jump stands where the jump stood, as the same opcode: patching moves no
instruction and changes no opcode. -/
theorem map_site_replace (pre post : List Instruction) (i : Instruction) (d : List UInt8) :
    (pre ++ { i with operands := d } :: post).map Instruction.site =
      (pre ++ i :: post).map Instruction.site := by
  simp [Instruction.site]

/-- **A loop lands on its start.** Appended to complete instructions laid end to end, the jump
of a loop is read back as one more complete `JMP`, whose target is the start whenever the
displacement from the jump's end fits sixteen signed bits. -/
theorem emitLoop_lands {b : Builder} (habut : Code.Abutting 0 (Code.decode b.code)) {start : Int}
    (h0 : -32768 ≤ start - (b.code.length + 3)) (h1 : start - (b.code.length + 3) ≤ 32767) :
    ∃ i, Code.decode (b.emitLoop start).code = Code.decode b.code ++ [i] ∧
      i.offset = b.code.length ∧ i.opcode = Op.jmp.byte ∧ i.truncated = false ∧
      i.target? = some start := by
  have hlen : (Bytes.le16 (UInt16.ofInt (start - (b.code.length + 3))).toNat).length =
      Opcode.operandLen Op.jmp.byte := rfl
  refine ⟨_, Code.decode_append_instruction habut hlen, rfl, rfl, rfl, ?_⟩
  rw [Instruction.target?_le16 _ (by decide) h0 h1]
  congr 1
  omega

/-! ### Builder calls -/

/-- A call of the builder's interface, as a program makes it. -/
inductive Call where
  | emit (op : UInt8)
  | emitWithOperand (op : UInt8) (operands : List UInt8)
  | lit (v : Int32)
  | lit32 (v : Int32)
  | call (idx : UInt16)
  | sys (id : UInt8) (args : List UInt8)
  | emitJump (op : UInt8)
  | patchJump (placeholder : Int)
  | patchJumpTo (placeholder target : Int)
  | emitLoop (start : Int)
deriving DecidableEq, Repr

namespace Call

/-- What a call does to a builder, and what it returns: the offset of the instruction it
wrote, or for a jump the offset of its placeholder; nothing for a patch or a loop. A patch at a
placeholder with no room for two bytes is a range fault. -/
def run (b : Builder) : Call → Except RangeFault (Builder × Option Nat)
  | .emit op => .ok (Prod.map id some (b.emit op))
  | .emitWithOperand op operands => .ok (Prod.map id some (b.emitWithOperand op operands))
  | .lit v => .ok (Prod.map id some (b.lit v))
  | .lit32 v => .ok (Prod.map id some (b.lit32 v))
  | .call idx => .ok (Prod.map id some (b.call idx))
  | .sys num args => .ok (Prod.map id some (b.sys num args))
  | .emitJump op => .ok (Prod.map id some (b.emitJump op))
  | .patchJump p => (b.patchJump p).map (·, none)
  | .patchJumpTo p t => (b.patchJumpTo p t).map (·, none)
  | .emitLoop start => .ok (b.emitLoop start, none)

/-- Whether a call writes an instruction: every call but the two patches. -/
def emits : Call → Bool
  | .patchJump _ | .patchJumpTo .. => false
  | _ => true

/-- The calls a well-behaved program makes, given the placeholders its jumps have returned: a
bare opcode has no operands, any other opcode gets exactly its operand field, jumps are
`JMP`, `JZ` or `JNZ`, and patches go to returned placeholders. -/
def Valid (placeholders : List Nat) : Call → Prop
  | .emit op => Opcode.operandLen op = 0
  | .emitWithOperand op operands => operands.length = Opcode.operandLen op
  | .emitJump op => Opcode.isJump op = true
  | .patchJump p | .patchJumpTo p _ => ∃ q ∈ placeholders, p = (q : Int)
  | .lit _ | .lit32 _ | .call _ | .sys .. | .emitLoop _ => True

instance decValid (placeholders : List Nat) : (k : Call) → Decidable (k.Valid placeholders)
  | .emit op => inferInstanceAs (Decidable (Opcode.operandLen op = 0))
  | .emitWithOperand op operands =>
    inferInstanceAs (Decidable (operands.length = Opcode.operandLen op))
  | .emitJump op => inferInstanceAs (Decidable (Opcode.isJump op = true))
  | .patchJump p => inferInstanceAs (Decidable (∃ q ∈ placeholders, p = (q : Int)))
  | .patchJumpTo p _ => inferInstanceAs (Decidable (∃ q ∈ placeholders, p = (q : Int)))
  | .lit _ | .lit32 _ | .call _ | .sys .. | .emitLoop _ => isTrue trivial

/-- The opcodes a call may write: the one it is given, a literal for `lit`, the fixed opcode of
the others, and none for a patch. -/
def Writes : Call → UInt8 → Prop
  | .emit op, b | .emitWithOperand op _, b | .emitJump op, b => b = op
  | .lit _, b => Opcode.isLiteral b = true
  | .lit32 _, b => b = Op.lit.byte
  | .call _, b => b = Op.call.byte
  | .sys .., b => b = Op.sys.byte
  | .emitLoop _, b => b = Op.jmp.byte
  | .patchJump _, _ | .patchJumpTo .., _ => False

/-- **An emitting call appends one complete instruction** of an opcode it may write; a jump
returns the offset just past its opcode, where the placeholder is. -/
theorem run_of_emits {k : Call} {ps : List Nat} (hk : k.Valid ps) (he : k.emits = true)
    (b : Builder) :
    ∃ op ops r, k.run b = .ok ({ code := b.code ++ op :: ops }, r) ∧
      ops.length = Opcode.operandLen op ∧ k.Writes op ∧
      ∀ jop, k = .emitJump jop → r = some (b.code.length + 1) := by
  cases k with
  | emit op => exact ⟨op, [], _, rfl, (hk : Opcode.operandLen op = 0).symm, rfl, by simp⟩
  | emitWithOperand op operands => exact ⟨op, operands, _, rfl, hk, rfl, by simp⟩
  | lit v =>
    obtain ⟨op, hop, ops, hlit, hlen, -, -⟩ := lit_eq b v
    refine ⟨op.byte, ops, some b.code.length, by simp [run, hlit], by simpa using hlen,
      Op.isLiteral_byte hop, by simp⟩
  | lit32 v => exact ⟨_, _, _, rfl, rfl, rfl, by simp⟩
  | call idx => exact ⟨_, _, _, rfl, rfl, rfl, by simp⟩
  | sys num args =>
    refine ⟨_, _, _, rfl, ?_, rfl, by simp⟩
    simp only [List.length_cons, List.length_append, List.length_take, List.length_replicate,
      Opcode.operandLen_byte, Op.info, sysOperandLen]
    omega
  | emitJump op =>
    refine ⟨op, [0xFF, 0xFF], _, rfl, (Opcode.operandLen_of_isJump hk).symm, rfl, ?_⟩
    intro _ _
    rfl
  | patchJump _ | patchJumpTo _ _ => cases he
  | emitLoop start => exact ⟨_, _, _, rfl, rfl, rfl, by simp⟩

/-- The placeholders a call returns: the one a jump returns, none for the others. -/
def placeholders (k : Call) (r : Option Nat) : List Nat :=
  match k with
  | .emitJump _ => r.toList
  | _ => []

theorem mem_placeholders {k : Call} {r : Option Nat} {p : Nat} (h : p ∈ k.placeholders r) :
    ∃ op, k = .emitJump op ∧ r = some p := by
  cases k <;> simp_all [placeholders]

/-- A call recorded with the offset it wrote at, against an instruction's site: the instruction
starts there and has an opcode the call may write. -/
def Emitted (e : Call × Nat) (site : Nat × UInt8) : Prop := site.1 = e.2 ∧ e.1.Writes site.2

end Call

/-! ### Running a script -/

/-- A builder together with what its calls did so far: each call that wrote an instruction, with
the offset it wrote it at, and each placeholder a jump returned. -/
structure Session where
  builder : Builder := {}
  emitted : List (Call × Nat) := []
  placeholders : List Nat := []

namespace Session

/-- Makes one call, and records it. -/
def step (s : Session) (k : Call) : Except RangeFault Session :=
  (k.run s.builder).map fun r =>
    { builder := r.1
      emitted := if k.emits then s.emitted ++ [(k, s.builder.code.length)] else s.emitted
      placeholders := s.placeholders ++ k.placeholders r.2 }

/-- Makes calls in order, stopping at the first fault. -/
def run (s : Session) : List Call → Except RangeFault Session
  | [] => .ok s
  | k :: ks => s.step k >>= fun s' => s'.run ks

/-- Every call of a script is valid where it is made. -/
def AllowsAll (s : Session) : List Call → Prop
  | [] => True
  | k :: ks => k.Valid s.placeholders ∧ ∀ s', s.step k = .ok s' → s'.AllowsAll ks

instance decAllowsAll : (s : Session) → (ks : List Call) → Decidable (s.AllowsAll ks)
  | _, [] => isTrue trivial
  | s, k :: ks =>
    match h : s.step k with
    | .ok s' =>
      have := decAllowsAll s' ks
      decidable_of_iff (k.Valid s.placeholders ∧ s'.AllowsAll ks) (by simp [AllowsAll, h])
    | .error _ => decidable_of_iff (k.Valid s.placeholders) (by simp [AllowsAll, h])

/-- What the calls so far have laid down: complete instructions end to end, one per emitting
call and at the offset it wrote at, and a jump just before every placeholder returned. -/
structure Inv (s : Session) : Prop where
  /-- The code reads back as complete instructions, each where the one before it ends. -/
  abutting : Code.Abutting 0 (Code.decode s.builder.code)
  /-- The instructions are those of the emitting calls, in call order. -/
  calls : List.Forall₂ Call.Emitted s.emitted ((Code.decode s.builder.code).map Instruction.site)
  /-- Every placeholder sits just after a jump's opcode. -/
  jumps : ∀ p ∈ s.placeholders, ∃ site ∈ (Code.decode s.builder.code).map Instruction.site,
    site.1 + 1 = p ∧ Opcode.isJump site.2 = true

variable {s s' : Session} {k : Call}

/-- One call, as an equation: the call's effect on the builder, with the call recorded. -/
theorem step_eq_ok :
    s.step k = .ok s' ↔ ∃ b r, k.run s.builder = .ok (b, r) ∧
      s' = { builder := b,
             emitted := if k.emits then s.emitted ++ [(k, s.builder.code.length)] else s.emitted,
             placeholders := s.placeholders ++ k.placeholders r } := by
  unfold step
  cases k.run s.builder with
  | error e => simp [Except.map]
  | ok r =>
    obtain ⟨b, r⟩ := r
    constructor
    · rintro ⟨⟩
      exact ⟨b, r, rfl, rfl⟩
    · rintro ⟨b, r, ⟨⟩, rfl⟩
      rfl

theorem step_emitted (h : s.step k = .ok s') :
    s'.emitted.map Prod.fst = s.emitted.map Prod.fst ++ [k].filter Call.emits := by
  obtain ⟨b, r, -, rfl⟩ := step_eq_ok.mp h
  by_cases he : k.emits <;> simp [he]

/-- Nothing has been laid down before the first call. -/
theorem inv_empty : Inv ({} : Session) where
  abutting := by simp [Code.decode, Code.decodeFrom, Code.Abutting]
  calls := by simp [Code.decode, Code.decodeFrom]
  jumps := by simp

/-- An emitting call lays one more complete instruction at the end, of an opcode it may write,
and a jump's placeholder lies just after its opcode. -/
theorem Inv.step_emits (hs : s.Inv) (hk : k.Valid s.placeholders) (he : k.emits = true) :
    ∃ s', s.step k = .ok s' ∧ s'.Inv := by
  obtain ⟨op, ops, r, hrun, hlen, hw, hjump⟩ := Call.run_of_emits hk he s.builder
  have hdec := Code.decode_append_instruction hs.abutting hlen
  refine ⟨_, step_eq_ok.mpr ⟨_, r, hrun, rfl⟩, ?_, ?_, ?_⟩
  · exact Code.abutting_append_instruction hs.abutting hlen
  · simp only [he, if_true, hdec, List.map_append]
    exact List.rel_append hs.calls (.cons ⟨rfl, hw⟩ .nil)
  · intro p hp
    simp only [hdec, List.map_append, List.mem_append] at hp ⊢
    rcases hp with hp | hp
    · obtain ⟨site, hsite, hsp⟩ := hs.jumps p hp
      exact ⟨site, .inl hsite, hsp⟩
    · -- the placeholder of the jump just written
      obtain ⟨jop, rfl, rfl⟩ := Call.mem_placeholders hp
      obtain ⟨rfl⟩ : some p = some (s.builder.code.length + 1) := hjump jop rfl
      refine ⟨(s.builder.code.length, op), .inr (by simp [Instruction.site]), rfl, ?_⟩
      rw [show op = jop from hw]
      exact hk

/-- **Patching a returned placeholder rewrites only the jump behind it.** The patch succeeds,
overwrites the two bytes at the placeholder with the displacement to the target, keeps every
instruction where it was and as the opcode it was, and leaves complete instructions end to end;
the jump just before the placeholder now carries that displacement. -/
theorem Inv.patch (hs : s.Inv) {q : Nat} (hq : q ∈ s.placeholders) (t : Int) :
    q + 2 ≤ s.builder.code.length ∧
      ∃ b', s.builder.patchJumpTo q t = .ok b' ∧
        b'.code = s.builder.code.take q ++ Bytes.le16 (UInt16.ofInt (t - ((q : Int) + 2))).toNat ++
          s.builder.code.drop (q + 2) ∧
        Code.Abutting 0 (Code.decode b'.code) ∧
        (Code.decode b'.code).map Instruction.site =
          (Code.decode s.builder.code).map Instruction.site ∧
        ∃ i ∈ Code.decode b'.code, i.offset + 1 = q ∧ Opcode.isJump i.opcode = true ∧
          i.truncated = false ∧ i.operands = Bytes.le16 (UInt16.ofInt (t - ((q : Int) + 2))).toNat := by
  obtain ⟨site, hsite, hq1, hjump⟩ := hs.jumps q hq
  obtain ⟨i, hi, rfl⟩ := List.mem_map.mp hsite
  simp only [Instruction.site] at hq1 hjump
  subst hq1
  obtain ⟨pre, post, hsplit, hpatch⟩ := patchJumpTo_jump hs.abutting hi hjump t
  have hcomplete := hs.abutting.complete hi
  have hlen : i.operands.length = 2 := hcomplete.2.trans (Opcode.operandLen_of_isJump hjump)
  set d := Bytes.le16 (UInt16.ofInt (t - (((i.offset + 1 : Nat) : Int) + 2))).toNat
  have habut := (hsplit ▸ hs.abutting).replace (d := d) (by simp [d, hlen])
  have hdec := Code.decode_flatMap_bytes habut
  have hroom : i.offset + 1 + 2 ≤ s.builder.code.length := hlen ▸ Code.end_le_length hs.abutting hi
  refine ⟨hroom, _, hpatch, ?_, ?_, ?_, ?_⟩
  · have h := (patchJumpTo_of_le hroom t).symm.trans hpatch
    injection h with h
    injection h with h
    exact h.symm
  · dsimp only
    rw [hdec]
    exact habut
  · dsimp only
    rw [hdec, hsplit, map_site_replace]
  · refine ⟨{ i with operands := d }, ?_, rfl, hjump, hcomplete.1, rfl⟩
    dsimp only
    rw [hdec]
    simp

/-- **Every valid call keeps what the calls so far have laid down.** An emitting call lays one
more instruction; a patch goes to a returned placeholder, whether aimed at a target or at the end
of the code, and moves nothing. -/
theorem Inv.step (hs : s.Inv) (hk : k.Valid s.placeholders) : ∃ s', s.step k = .ok s' ∧ s'.Inv := by
  cases he : k.emits
  case true => exact hs.step_emits hk he
  case false =>
    obtain ⟨q, hq, t, hrun⟩ : ∃ q ∈ s.placeholders, ∃ t,
        k.run s.builder = (s.builder.patchJumpTo q t).map (·, none) := by
      cases k with
      | patchJump p =>
        obtain ⟨q, hq, rfl⟩ := hk
        exact ⟨q, hq, _, rfl⟩
      | patchJumpTo p t =>
        obtain ⟨q, hq, rfl⟩ := hk
        exact ⟨q, hq, t, rfl⟩
      | _ => cases he
    obtain ⟨-, b', hpatch, -, habut, hsites, -⟩ := hs.patch hq t
    refine ⟨_, step_eq_ok.mpr ⟨b', none, by rw [hrun, hpatch]; rfl, rfl⟩, ?_, ?_, ?_⟩
    · exact habut
    · dsimp only
      rw [hsites, if_neg (by simp [he])]
      exact hs.calls
    · intro p hp
      dsimp only at hp ⊢
      rw [hsites]
      rcases List.mem_append.mp hp with hp | hp
      · exact hs.jumps p hp
      · obtain ⟨_, -, h⟩ := Call.mem_placeholders hp
        cases h

/-- **A valid script runs to the end and keeps the invariant**, recording its emitting calls in
order. The induction is on the script; each call is `Inv.step`. -/
theorem Inv.run (hs : s.Inv) {ks : List Call} (h : s.AllowsAll ks) :
    ∃ s', s.run ks = .ok s' ∧ s'.Inv ∧
      s'.emitted.map Prod.fst = s.emitted.map Prod.fst ++ ks.filter Call.emits := by
  induction ks generalizing s with
  | nil => exact ⟨s, rfl, hs, by simp⟩
  | cons k ks ih =>
    obtain ⟨hk, hrest⟩ := h
    obtain ⟨s₁, hstep, hs₁⟩ := hs.step hk
    obtain ⟨s₂, hrun, hs₂, hem⟩ := ih hs₁ (hrest s₁ hstep)
    refine ⟨s₂, by rw [run, hstep]; exact hrun, hs₂, ?_⟩
    rw [hem, step_emitted hstep, List.filter_cons]
    by_cases he : k.emits <;> simp [he]

end Session

/-- **Code built by a valid script reads back one complete instruction per emitting call, and its
jumps land where they are aimed.** For a script of builder calls, each valid where it is made,
with emits and patches interleaved in any order: the script runs to the end; the code decodes to
complete instructions, one for each emitting call in call order, at the offset that call wrote
at and of an opcode it may write. Patching any placeholder a jump returned, towards a target
whose displacement from the jump's end fits sixteen signed bits, succeeds, changes no byte but
the two at the placeholder, and gives the jump just before it that target; and a loop appended
to the code is a `JMP` back to its start. -/
theorem built_code_decodes_and_jumps_land (calls : List Call)
    (h : ({} : Session).AllowsAll calls) :
    ∃ s : Session, ({} : Session).run calls = .ok s ∧
      s.emitted.map Prod.fst = calls.filter Call.emits ∧
      List.Forall₂ (fun (e : Call × Nat) (i : Instruction) => i.offset = e.2 ∧ e.1.Writes i.opcode)
        s.emitted (Code.decode s.builder.code) ∧
      (∀ i ∈ Code.decode s.builder.code,
        i.truncated = false ∧ i.operands.length = Opcode.operandLen i.opcode) ∧
      (∀ p ∈ s.placeholders, ∀ t : Int, -32768 ≤ t - (p + 2) → t - (p + 2) ≤ 32767 →
        ∃ b', s.builder.patchJumpTo p t = .ok b' ∧ b'.code.length = s.builder.code.length ∧
          (∀ n, n ≠ p → n ≠ p + 1 → b'.code[n]? = s.builder.code[n]?) ∧
          ∃ i ∈ Code.decode b'.code, i.offset + 1 = p ∧ i.target? = some t) ∧
      ∀ start : Int, -32768 ≤ start - (s.builder.code.length + 3) →
        start - (s.builder.code.length + 3) ≤ 32767 →
        ∃ i, Code.decode (s.builder.emitLoop start).code = Code.decode s.builder.code ++ [i] ∧
          i.opcode = Op.jmp.byte ∧ i.truncated = false ∧ i.target? = some start := by
  obtain ⟨s, hrun, hs, hem⟩ := Session.inv_empty.run h
  refine ⟨s, hrun, by simpa using hem, List.forall₂_map_right_iff.mp hs.calls,
    fun i hi => hs.abutting.complete hi, ?_, ?_⟩
  · intro p hp t h0 h1
    obtain ⟨hroom, b', hpatch, hcode, -, -, i, hi, hoff, hj, ht, hops⟩ := hs.patch hp t
    refine ⟨b', hpatch, ?_, ?_, i, hi, hoff, ?_⟩
    · rw [hcode]
      simp only [List.length_append, List.length_take, List.length_drop, Bytes.length_le16]
      omega
    · intro n hn hn'
      rw [hcode]
      exact getElem?_overwrite hroom (Bytes.length_le16 _) hn hn'
    · obtain ⟨o, op, ops, tr⟩ := i
      simp only at hoff hj ht hops
      subst hoff ht hops
      rw [Instruction.target?_le16 _ hj h0 h1]
      congr 1
      omega
  · intro start h0 h1
    obtain ⟨i, hdec, -, hop, ht, htarget⟩ := emitLoop_lands hs.abutting h0 h1
    exact ⟨i, hdec, hop, ht, htarget⟩

/-- A countdown loop: a forward exit jump patched past the loop's backward jump. -/
theorem countdown_script_builds :
    ({} : Session).AllowsAll [.emit Op.dup.byte, .emitJump Op.jz.byte, .lit 1, .emit Op.sub.byte,
      .emitLoop 0, .patchJump 2, .emit Op.ret.byte] ∧
    ∃ s : Session, ({} : Session).run [.emit Op.dup.byte, .emitJump Op.jz.byte, .lit 1,
      .emit Op.sub.byte, .emitLoop 0, .patchJump 2, .emit Op.ret.byte] = .ok s ∧
      s.emitted.map Prod.fst = [.emit Op.dup.byte, .emitJump Op.jz.byte, .lit 1,
        .emit Op.sub.byte, .emitLoop 0, .emit Op.ret.byte] := by
  have h : ({} : Session).AllowsAll [.emit Op.dup.byte, .emitJump Op.jz.byte, .lit 1,
      .emit Op.sub.byte, .emitLoop 0, .patchJump 2, .emit Op.ret.byte] := by decide
  obtain ⟨s, hrun, hem, -⟩ := built_code_decodes_and_jumps_land _ h
  exact ⟨h, s, hrun, hem⟩

-- the exit jump lands just past the loop, and the loop's jump back on the start
example : (({} : Session).run [.emit Op.dup.byte, .emitJump Op.jz.byte, .lit 1,
    .emit Op.sub.byte, .emitLoop 0, .patchJump 2, .emit Op.ret.byte]).map
      (fun s => (Code.decode s.builder.code).filterMap Instruction.target?) = .ok [10, 0] := by
  decide +kernel

end Builder

end StackLink
