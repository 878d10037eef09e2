import Mathlib
import StackLink.Proofs.Upload

/-!
# Relocating the calls of code

A container's words are written as if they were the first words of the table: a `CALL`
names a word by its index in the container. When the link uploads the container behind `n`
words already registered, it adds `n` to every call (`StackLink.Code.relocate`). This file
says what that does to the code, instruction by instruction.

* **Relocation keeps the instructions where they are**: walking relocated code finds the
  relocated instructions at the same offsets (`StackLink.Code.decode_relocate`), the code keeps
  its length (`StackLink.Code.length_relocate`), and an instruction read at the start of one
  is the relocated instruction read there (`StackLink.Code.fetch_relocate`).
* Only calls change (`StackLink.Instruction.relocate_of_ne_call`), and a call's index grows
  by exactly `n` as long as it stays below `2^16` (`StackLink.Code.leValue_relocate_call`).

A run reads code at the offsets its instructions lead to, and a jump can lead anywhere. The
relocated code behaves as the code did only where the run reads it at instruction starts
(`StackLink.Code.IsStart`). The run starts at offset zero, and an instruction other than a jump
leads to the start of the next one (`StackLink.Code.isStart_next`). A jump may land inside the
operands of a call, whose bytes relocation changes. `StackLink.Code.Relocatable` asks for the
two conditions under which relocated code runs as the original: every call's index plus `n`
fits in sixteen bits, and every jump that lands inside the code lands at an instruction start.
-/

namespace StackLink

namespace Instruction

variable {k : UInt16} {i : Instruction}

/-- Relocation changes no instruction's length: a complete call keeps its two index bytes. -/
theorem length_operands_relocate
    (h : i.truncated = false → i.operands.length = Opcode.operandLen i.opcode) :
    (i.relocate k).operands.length = i.operands.length := by
  unfold relocate callTarget?
  by_cases hc : i.opcode = Op.call.byte ∧ i.truncated = false
  · obtain ⟨hop, ht⟩ := hc
    rw [if_pos (by simp [hop, ht]), h ht, hop]
    rfl
  · rw [if_neg (by simpa using hc)]

end Instruction

/-- Sixteen bits written out and read back. -/
theorem Bytes.leValue_le16 {x : Nat} (h : x < 65536) : Bytes.leValue (Bytes.le16 x) = x := by
  simp only [Bytes.le16, Bytes.leValue, UInt8.toNat_ofNat', Nat.mul_zero, Nat.add_zero]
  omega

/-- Two bytes, read little-endian, give a value below `2^16`. -/
theorem Bytes.leValue_lt_of_length_two {bs : List UInt8} (h : bs.length = 2) :
    Bytes.leValue bs < 65536 := by
  match bs, h with
  | [lo, hi], _ =>
    have := lo.toNat_lt
    have := hi.toNat_lt
    simp only [Bytes.leValue]
    omega

namespace Code

/-- Reading an instruction past a prefix of `d` bytes. -/
theorem fetch_drop (code : List UInt8) (d p : Nat) :
    fetch code (d + p) = (fetch (code.drop d) p).map fun i => { i with offset := d + p } := by
  unfold fetch
  rw [List.drop_drop]
  split <;> rfl

/-- An instruction of the walk is the one read on its own at its offset. -/
theorem fetch_of_mem_decodeFrom {off : Nat} {code : List UInt8} {i : Instruction}
    (hi : i ∈ decodeFrom off code) :
    ∃ p, i.offset = off + p ∧ fetch code p = some { i with offset := p } := by
  fun_induction decodeFrom off code with
  | case1 => simp at hi
  | case2 off' b rest n h =>
    simp only [List.mem_singleton] at hi
    subst hi
    refine ⟨0, rfl, ?_⟩
    simp [fetch, List.take_of_length_le (Nat.le_of_lt h), h, n]
  | case3 off' b rest n h ih =>
    rcases List.mem_cons.mp hi with rfl | hi
    · refine ⟨0, rfl, ?_⟩
      simp [fetch, n]
      omega
    · obtain ⟨p, hp, hf⟩ := ih hi
      refine ⟨1 + n + p, by omega, ?_⟩
      have hdrop : (b :: rest).drop (1 + n) = rest.drop n := by
        rw [Nat.add_comm]; rfl
      rw [fetch_drop, hdrop, hf]
      rfl

theorem fetch_of_mem_decode {code : List UInt8} {i : Instruction} (hi : i ∈ decode code) :
    fetch code i.offset = some i := by
  obtain ⟨p, hp, hf⟩ := fetch_of_mem_decodeFrom hi
  simp only [Nat.zero_add] at hp
  rw [hp, hf, ← hp]

@[simp] theorem fetch_length (code : List UInt8) : fetch code code.length = none := by
  simp [fetch]

/-- A complete instruction read in the walk has the whole operand field of its opcode. -/
theorem length_operands_of_complete {off n : Nat} {b : UInt8} {rest : List UInt8}
    (hn : n = Opcode.operandLen b) (h : ¬ rest.length < n) (k : UInt16) :
    ((⟨off, b, rest.take n, false⟩ : Instruction).relocate k).operands.length = n := by
  rw [Instruction.length_operands_relocate (fun _ => by simp [hn]; omega)]
  simp only [List.length_take]
  omega

/-- **Relocation keeps the instructions where they are**: walking relocated code finds the
relocated instructions, at the same offsets. -/
theorem decodeFrom_relocate (k : UInt16) (off : Nat) (code : List UInt8) :
    decodeFrom off ((decodeFrom off code).flatMap fun i => (i.relocate k).bytes) =
      (decodeFrom off code).map (Instruction.relocate k) := by
  fun_induction decodeFrom off code with
  | case1 => simp [decodeFrom]
  | case2 off' b rest n h =>
    -- a truncated instruction is not relocated
    have hrel : (⟨off', b, rest, true⟩ : Instruction).relocate k = ⟨off', b, rest, true⟩ :=
      Instruction.relocate_of_truncated rfl
    simp only [List.flatMap_cons, List.flatMap_nil, List.append_nil, List.map_cons, List.map_nil,
      hrel, Instruction.bytes]
    rw [decodeFrom]
    simp [h, n]
  | case3 off' b rest n h ih =>
    -- the relocated instruction has as many operand bytes as the one read
    set i : Instruction := ⟨off', b, rest.take n, false⟩
    have hops : (i.relocate k).operands.length = n := length_operands_of_complete rfl h k
    have hb : (i.relocate k).bytes = b :: (i.relocate k).operands := by
      simp [Instruction.bytes, i]
    have hhead : i.relocate k = ⟨off', b, (i.relocate k).operands, false⟩ := by
      have ho : (i.relocate k).offset = off' := Instruction.relocate_offset
      have hc : (i.relocate k).opcode = b := Instruction.relocate_opcode
      have ht : (i.relocate k).truncated = false := Instruction.relocate_truncated
      generalize i.relocate k = j at ho hc ht
      cases j
      simp_all
    rw [List.flatMap_cons, hb, List.cons_append, decodeFrom, if_neg (by simp; omega),
      List.take_left' hops, List.drop_left' hops, ih, List.map_cons, ← hhead]

theorem decode_relocate (k : UInt16) (code : List UInt8) :
    decode (relocate k code) = (decode code).map (Instruction.relocate k) := by
  rw [relocate_eq_flatMap]
  exact decodeFrom_relocate k 0 code

/-- Relocation keeps the length of code. -/
@[simp]
theorem length_relocate (k : UInt16) (code : List UInt8) :
    (relocate k code).length = code.length := by
  rw [relocate_eq_flatMap]
  unfold decode
  generalize 0 = off
  fun_induction decodeFrom off code with
  | case1 => rfl
  | case2 off' b rest n h =>
    simp [Instruction.relocate_of_truncated, Instruction.bytes]
  | case3 off' b rest n h ih =>
    have hb : ((⟨off', b, rest.take n, false⟩ : Instruction).relocate k).bytes.length = 1 + n := by
      rw [Instruction.bytes, List.length_cons, length_operands_of_complete rfl h k]
      omega
    rw [List.flatMap_cons, List.length_append, hb, ih, List.length_drop, List.length_cons]
    omega

/-! ### Instruction starts -/

/-- `p` is where an instruction of `code` starts, or the end of `code`. -/
def IsStart (code : List UInt8) (p : Nat) : Prop :=
  p = code.length ∨ ∃ i ∈ decode code, i.offset = p

instance (code : List UInt8) (p : Nat) : Decidable (IsStart code p) :=
  inferInstanceAs (Decidable (p = code.length ∨ ∃ i ∈ decode code, i.offset = p))

/-- **Read at an instruction start, relocated code holds the relocated instruction.** -/
theorem fetch_relocate {code : List UInt8} {p : Nat} (k : UInt16) (hp : IsStart code p) :
    fetch (relocate k code) p = (fetch code p).map (Instruction.relocate k) := by
  rcases hp with rfl | ⟨i, hi, rfl⟩
  · have h := fetch_length (relocate k code)
    rw [length_relocate] at h
    rw [h, fetch_length]
    rfl
  · have hr : i.relocate k ∈ decode (relocate k code) := by
      rw [decode_relocate]; exact List.mem_map_of_mem hi
    have h := fetch_of_mem_decode hr
    rw [Instruction.relocate_offset] at h
    rw [h, fetch_of_mem_decode hi]
    rfl

/-- What is read at `p` starts at `p`. -/
theorem offset_of_fetch {code : List UInt8} {p : Nat} {i : Instruction}
    (hf : fetch code p = some i) : i.offset = p := by
  unfold fetch at hf
  split at hf
  · cases hf
  · cases hf; rfl

theorem mem_decode_of_fetch {code : List UInt8} {p : Nat} {i : Instruction} (hp : IsStart code p)
    (hf : fetch code p = some i) : i ∈ decode code := by
  rcases hp with rfl | ⟨j, hj, rfl⟩
  · simp at hf
  · rw [fetch_of_mem_decode hj] at hf
    cases hf
    exact hj

/-- The walk of non-empty code finds an instruction where it starts. -/
theorem exists_offset_decodeFrom (off : Nat) {code : List UInt8} (h : code ≠ []) :
    ∃ i ∈ decodeFrom off code, i.offset = off := by
  cases code with
  | nil => contradiction
  | cons b rest =>
    rw [decodeFrom]
    split <;> exact ⟨_, List.mem_cons_self, rfl⟩

theorem isStart_zero (code : List UInt8) : IsStart code 0 := by
  by_cases h : code = []
  · subst h; exact .inl rfl
  · exact .inr (exists_offset_decodeFrom 0 h)

theorem isStart_next_of_mem_decodeFrom {off : Nat} {code : List UInt8} {i : Instruction}
    (hi : i ∈ decodeFrom off code) (ht : i.truncated = false) :
    i.offset + 1 + i.operands.length = off + code.length ∨
      ∃ j ∈ decodeFrom off code, j.offset = i.offset + 1 + i.operands.length := by
  fun_induction decodeFrom off code with
  | case1 => simp at hi
  | case2 off' b rest n h =>
    simp only [List.mem_singleton] at hi
    subst hi
    simp at ht
  | case3 off' b rest n h ih =>
    rcases List.mem_cons.mp hi with rfl | hi
    · -- the next instruction starts right after this one, unless the code ends there
      by_cases hend : rest.drop n = []
      · left
        simp only [List.length_take, List.length_cons]
        simp at hend
        omega
      · right
        obtain ⟨j, hj, hoff⟩ := exists_offset_decodeFrom (off' + 1 + n) hend
        refine ⟨j, List.mem_cons_of_mem _ hj, ?_⟩
        simp only [List.length_take]
        rw [hoff]
        omega
    · rcases ih hi with h' | ⟨j, hj, hoff⟩
      · left
        simp only [List.length_drop, List.length_cons] at h' ⊢
        omega
      · exact .inr ⟨j, List.mem_cons_of_mem _ hj, hoff⟩

/-- After a complete instruction comes the start of the next one, or the end of the code. -/
theorem isStart_next {code : List UInt8} {i : Instruction} (hi : i ∈ decode code)
    (ht : i.truncated = false) : IsStart code (i.offset + 1 + i.operands.length) := by
  rcases isStart_next_of_mem_decodeFrom hi ht with h | h
  · exact .inl (by simpa using h)
  · exact .inr h

/-! ### Code that relocates cleanly -/

/-- Every complete jump of `code` that lands inside it lands where an instruction starts or at
its end. -/
def JumpsLand (code : List UInt8) : Prop :=
  ∀ i ∈ decode code, ∀ t ∈ i.target?, 0 ≤ t → t ≤ code.length → IsStart code t.toNat

/-- Every complete call of `code` names a word index that stays below `2^16` when `n` is added. -/
def CallsFit (n : Nat) (code : List UInt8) : Prop :=
  ∀ t ∈ callTargets code, t.toNat + n < 65536

instance (code : List UInt8) : Decidable (JumpsLand code) :=
  inferInstanceAs (Decidable (∀ i ∈ decode code, ∀ t ∈ i.target?, 0 ≤ t → t ≤ code.length →
    IsStart code t.toNat))

-- over the list of targets, not over all sixteen-bit values
instance (n : Nat) (code : List UInt8) : Decidable (CallsFit n code) :=
  List.decidableBAll (fun t : UInt16 => t.toNat + n < 65536) (callTargets code)

/-- Code whose relocation by `n` changes only the words its calls name. -/
structure Relocatable (n : Nat) (code : List UInt8) : Prop where
  calls : CallsFit n code
  jumps : JumpsLand code

instance (n : Nat) (code : List UInt8) : Decidable (Relocatable n code) :=
  decidable_of_iff (CallsFit n code ∧ JumpsLand code)
    ⟨fun ⟨a, b⟩ => ⟨a, b⟩, fun ⟨a, b⟩ => ⟨a, b⟩⟩

/-- **A relocated call names the word `n` places further up**, when its index plus `n` fits
in sixteen bits. -/
theorem leValue_relocate_call {n : Nat} {code : List UInt8} {i : Instruction}
    (hfit : CallsFit n code) (hi : i ∈ decode code) (hop : i.opcode = Op.call.byte)
    (ht : i.truncated = false) :
    Bytes.leValue (i.relocate (UInt16.ofNat n)).operands = Bytes.leValue i.operands + n := by
  -- a complete call has two index bytes, so its index is below `2^16`
  have hlen : i.operands.length = 2 := by
    rw [operands_decodeFrom hi ht, hop]
    rfl
  have hv := Bytes.leValue_lt_of_length_two hlen
  have htarget : i.callTarget? = some (UInt16.ofNat (Bytes.leValue i.operands)) := by
    simp [Instruction.callTarget?, hop, ht]
  have hmem : UInt16.ofNat (Bytes.leValue i.operands) ∈ callTargets code := by
    rw [callTargets_eq_filterMap]
    exact List.mem_filterMap.mpr ⟨i, hi, htarget⟩
  have hsum := hfit _ hmem
  simp only [UInt16.toNat_ofNat', Nat.mod_eq_of_lt hv] at hsum
  simp only [Instruction.relocate, htarget]
  rw [Bytes.leValue_le16 (by simp [UInt16.toNat_add, UInt16.toNat_ofNat']; omega)]
  simp only [UInt16.toNat_add, UInt16.toNat_ofNat']
  omega

/-- Where a complete jump of the walk lands when taken: past its operands, plus its
displacement. -/
theorem target?_of_jump {code : List UInt8} {i : Instruction} (hi : i ∈ decode code)
    (ht : i.truncated = false)
    (hop : i.opcode = Op.jmp.byte ∨ i.opcode = Op.jz.byte ∨ i.opcode = Op.jnz.byte) :
    i.target? = some (((i.offset + 1 + i.operands.length : Nat) : Int) +
      Bytes.signed 16 (Bytes.leValue i.operands)) := by
  have hlen : i.operands.length = 2 := by
    rw [operands_decodeFrom hi ht]
    rcases hop with h | h | h <;> rw [h] <;> rfl
  have hjump : Opcode.isJump i.opcode = true := by
    rcases hop with h | h | h <;> rw [h] <;> rfl
  simp only [Instruction.target?, Instruction.displacement?, hjump, ht, hlen]
  simp only [Bool.not_false, Bool.and_self, if_true, Option.map_some, Option.some.injEq]
  push_cast
  omega

end Code

end StackLink
