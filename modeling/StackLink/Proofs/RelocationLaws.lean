import Mathlib
import StackLink.Proofs.Fields

/-!
# The laws of call relocation

Relocation takes an offset of any size and keeps it modulo `2^16`, the width of a call's word
index: relocating by `k` is `StackLink.Code.relocate (UInt16.ofInt k)`. This file says what that
does to every byte of code, and the algebra that follows.

**Relocation raises call indices and touches nothing else**
(`StackLink.Code.relocate_shifts_call_indices`). Relocated code has the length of the code, the
same byte at every position other than the two index bytes of a complete call of the walk
(`StackLink.Code.IsCallOperand`), and, at each such call, the old little-endian index plus `k`
modulo `2^16` (`StackLink.Code.ShiftsCalls`). Its call list is the old one with `k` added to
every entry; relocating by `a` and then by `b` is relocating by `a + b`; and an offset that is a
multiple of `2^16` changes nothing. The facts behind it:

* on one instruction, relocation adds `k` to the index of a complete call and leaves every
  other instruction as it is, so two relocations add up
  (`StackLink.Instruction.callTarget?_relocate`, `StackLink.Instruction.relocate_relocate`);
* the operands of an instruction of the walk are the bytes that follow its opcode in the code
  (`StackLink.Code.readLE_operands`);
* relocated code is walked at the same offsets (`StackLink.Code.decode_relocate`), so a second
  relocation rewrites the calls the first one did, and the bytes outside the calls' index
  fields are the code's own (`StackLink.Code.getElem?_relocate`).
-/

namespace StackLink

namespace Instruction

variable {k a b : UInt16} {i : Instruction}

theorem relocate_of_callTarget? {t : UInt16} (h : i.callTarget? = some t) :
    i.relocate k = { i with operands := Bytes.le16 (t + k).toNat } := by
  simp [relocate, h]

theorem relocate_of_callTarget?_none (h : i.callTarget? = none) : i.relocate k = i := by
  simp [relocate, h]

theorem callTarget?_eq_some_iff {t : UInt16} :
    i.callTarget? = some t ↔
      i.opcode = Op.call.byte ∧ i.truncated = false ∧ UInt16.ofNat (Bytes.leValue i.operands) = t := by
  unfold callTarget?
  split <;> simp_all

/-- **A relocated call names the index plus `k`**, modulo `2^16`; no other instruction becomes a
call. -/
theorem callTarget?_relocate : (i.relocate k).callTarget? = i.callTarget?.map (· + k) := by
  cases ht : i.callTarget? with
  | none => rw [relocate_of_callTarget?_none ht, ht]; rfl
  | some t =>
    obtain ⟨hop, htr, -⟩ := callTarget?_eq_some_iff.mp ht
    rw [relocate_of_callTarget? ht, Option.map_some, callTarget?_eq_some_iff]
    refine ⟨hop, htr, ?_⟩
    -- the new index bytes hold `t + k`, which fits them
    rw [Bytes.leValue_le16_mod]
    apply UInt16.toNat_inj.mp
    simp [UInt16.toNat_add]

/-- **Two relocations add up.** -/
theorem relocate_relocate : (i.relocate a).relocate b = i.relocate (a + b) := by
  cases ht : i.callTarget? with
  | none => simp only [relocate_of_callTarget?_none ht]
  | some t =>
    have ha : (i.relocate a).callTarget? = some (t + a) := by
      rw [callTarget?_relocate, ht]
      rfl
    rw [relocate_of_callTarget? ha, relocate_of_callTarget? ht, relocate_of_callTarget? ht,
      UInt16.add_assoc]

end Instruction

namespace Code

variable {k : UInt16} {code : List UInt8} {i : Instruction}

/-- **Two relocations of code add up**: relocated code is walked at the same offsets, so the
second relocation rewrites the calls the first one did. -/
theorem relocate_relocate (a b : UInt16) (code : List UInt8) :
    relocate b (relocate a code) = relocate (a + b) code := by
  rw [relocate_eq_flatMap b, relocate_eq_flatMap (a + b), decode_relocate, List.flatMap_map]
  simp only [Instruction.relocate_relocate]

/-- **Relocation adds `k` to every entry of the call list.** -/
theorem callTargets_relocate (k : UInt16) (code : List UInt8) :
    callTargets (relocate k code) = (callTargets code).map (· + k) := by
  rw [callTargets_eq_filterMap, callTargets_eq_filterMap, decode_relocate, List.filterMap_map,
    List.map_filterMap]
  congr 1
  funext i
  exact Instruction.callTarget?_relocate

/-- An offset that is a multiple of `2^16` is no offset at all. -/
theorem relocate_ofInt_of_dvd {j : Int} (h : 65536 ∣ j) (code : List UInt8) :
    relocate (UInt16.ofInt j) code = code := by
  have hzero : UInt16.ofInt j = 0 := by
    simp only [UInt16.ofInt]
    rw [show j % 2 ^ 16 = 0 from Int.emod_eq_zero_of_dvd (by simpa using h)]
    rfl
  rw [hzero, relocate_zero]

/-! ### Bytes of relocated code -/

/-- The operands of an instruction of the walk are the bytes right after its opcode. -/
theorem readLE_operands (hi : i ∈ decode code) (ht : i.truncated = false) :
    Bytes.readLE i.operands.length code (i.offset + 1) = some (Bytes.leValue i.operands) := by
  have hf := fetch_of_mem_decode hi
  unfold fetch at hf
  split at hf
  · cases hf
  · rename_i b rest hdrop
    have hops := congrArg Instruction.operands (Option.some.inj hf)
    have htr := congrArg Instruction.truncated (Option.some.inj hf)
    dsimp only at hops htr
    rw [ht, decide_eq_false_iff_not, Nat.not_lt] at htr
    rw [← hops]
    have hrest : code.drop (i.offset + 1) = rest := by
      rw [← List.drop_drop, hdrop]
      rfl
    have hlen : i.offset + 1 + rest.length = code.length := by
      have := congrArg List.length hdrop
      simp only [List.length_drop, List.length_cons] at this
      omega
    have hn : Opcode.operandLen b ≤ rest.length := by
      rw [List.length_take] at htr
      omega
    simp only [Bytes.readLE, hrest, List.length_take]
    rw [if_pos (by omega), Nat.min_eq_left hn]

/-- `p` is one of the two index bytes of a complete call of the walk: the only bytes that
relocation rewrites. -/
def IsCallOperand (code : List UInt8) (p : Nat) : Prop :=
  ∃ i ∈ decode code, i.opcode = Op.call.byte ∧ i.truncated = false ∧
    (p = i.offset + 1 ∨ p = i.offset + 2)

/-- Relocating one instruction changes no byte outside a complete call's index field. -/
theorem getElem?_bytes_relocate {q : Nat}
    (hq : i.opcode = Op.call.byte → i.truncated = false → q ≠ 1 ∧ q ≠ 2)
    (hlen : i.truncated = false → i.operands.length = Opcode.operandLen i.opcode) :
    (i.relocate k).bytes[q]? = i.bytes[q]? := by
  by_cases hc : i.opcode = Op.call.byte ∧ i.truncated = false
  · obtain ⟨hop, ht⟩ := hc
    obtain ⟨hq1, hq2⟩ := hq hop ht
    -- a call's bytes are its opcode and two index bytes; only the last two change
    have hl : i.operands.length = 2 := by rw [hlen ht, hop]; rfl
    have hrl : (i.relocate k).operands.length = 2 := by
      rw [Instruction.length_operands_relocate hlen, hl]
    match q, hq1, hq2 with
    | 0, _, _ => simp [Instruction.bytes]
    | q + 3, _, _ =>
      simp only [Instruction.bytes, List.getElem?_cons_succ]
      rw [List.getElem?_eq_none (by omega), List.getElem?_eq_none (by omega)]
  · have hne : i.opcode ≠ Op.call.byte ∨ i.truncated = true := by
      by_cases hop : i.opcode = Op.call.byte
      · right; simpa [hop] using hc
      · exact .inl hop
    rcases hne with hop | ht
    · rw [Instruction.relocate_of_ne_call hop]
    · rw [Instruction.relocate_of_truncated ht]

/-- Relocated code walked from `off` agrees with the code at every byte outside the index
fields of its complete calls. -/
theorem getElem?_relocate_decodeFrom (off : Nat) (code : List UInt8) (p : Nat)
    (hp : ∀ i ∈ decodeFrom off code, i.opcode = Op.call.byte → i.truncated = false →
      p + off ≠ i.offset + 1 ∧ p + off ≠ i.offset + 2) :
    ((decodeFrom off code).flatMap fun i => (i.relocate k).bytes)[p]? = code[p]? := by
  fun_induction decodeFrom off code generalizing p with
  | case1 => simp
  | case2 off' b rest n h =>
    simp [Instruction.relocate_of_truncated, Instruction.bytes]
  | case3 off' b rest n h ih =>
    set i : Instruction := ⟨off', b, rest.take n, false⟩
    have hlen : (i.relocate k).bytes.length = 1 + n := by
      rw [Instruction.bytes, List.length_cons, length_operands_of_complete rfl h k]
      omega
    have hcode : b :: rest = i.bytes ++ rest.drop n := by
      simp [i, Instruction.bytes]
    have hib : i.bytes.length = 1 + n := by
      simp only [i, Instruction.bytes, List.length_cons, List.length_take]
      omega
    rw [List.flatMap_cons, hcode]
    by_cases hpn : p < 1 + n
    · -- `p` falls in the first instruction
      rw [List.getElem?_append_left (by omega), List.getElem?_append_left (by omega)]
      refine getElem?_bytes_relocate (fun hop ht => ?_) (fun _ => by simp [i, n]; omega)
      have := hp i List.mem_cons_self hop ht
      simp only [i] at this
      omega
    · -- past it, both strings go on with the rest of the walk
      rw [List.getElem?_append_right (by omega), List.getElem?_append_right (by omega), hlen,
        hib]
      refine ih (p - (1 + n)) (fun j hj hop ht => ?_)
      have := hp j (List.mem_cons_of_mem _ hj) hop ht
      omega

/-- **Relocation keeps every byte outside the index fields of complete calls.** -/
theorem getElem?_relocate {p : Nat} (hp : ¬ IsCallOperand code p) :
    (relocate k code)[p]? = code[p]? := by
  rw [relocate_eq_flatMap]
  refine getElem?_relocate_decodeFrom 0 code p (fun i hi hop ht => ?_)
  simp only [IsCallOperand, not_exists, not_and] at hp
  have := hp i hi hop ht
  omega

/-- A complete call of the walk has its two index bytes. -/
theorem length_operands_of_call (hi : i ∈ decode code) (hop : i.opcode = Op.call.byte)
    (ht : i.truncated = false) : i.operands.length = 2 := by
  rw [operands_decodeFrom hi ht, hop]
  rfl

/-- **A relocated call holds its old index plus `k`**, modulo `2^16`, in its two index bytes. -/
theorem readLE16_relocate (hi : i ∈ decode code) (hop : i.opcode = Op.call.byte)
    (ht : i.truncated = false) :
    Bytes.readLE16 (relocate k code) (i.offset + 1) =
      some ((Bytes.leValue i.operands + k.toNat) % 65536) := by
  have hv := Bytes.leValue_lt_of_length_two (length_operands_of_call hi hop ht)
  have hr : i.relocate k ∈ decode (relocate k code) := by
    rw [decode_relocate]
    exact List.mem_map_of_mem hi
  have htarget : i.callTarget? = some (UInt16.ofNat (Bytes.leValue i.operands)) :=
    Instruction.callTarget?_eq_some_iff.mpr ⟨hop, ht, rfl⟩
  have hops : (i.relocate k).operands =
      Bytes.le16 (UInt16.ofNat (Bytes.leValue i.operands) + k).toNat := by
    simp [Instruction.relocate, htarget]
  have hread := readLE_operands hr (Instruction.relocate_truncated.trans ht)
  rw [Instruction.relocate_offset, hops, Bytes.length_le16, Bytes.leValue_le16_mod] at hread
  rw [Bytes.readLE16, hread]
  simp [UInt16.toNat_add, UInt16.toNat_ofNat', Nat.mod_eq_of_lt hv]

/-- Code with the index of every complete call raised by `k`, modulo `2^16`: `r` has the length
of `code`, the byte of `code` wherever no call's index field is, and at each complete call the
old little-endian index plus `k`. -/
structure ShiftsCalls (k : Int) (code r : List UInt8) : Prop where
  length : r.length = code.length
  others : ∀ p, ¬ IsCallOperand code p → r[p]? = code[p]?
  calls : ∀ i ∈ decode code, i.opcode = Op.call.byte → i.truncated = false →
    ∃ v : Nat, Bytes.readLE16 code (i.offset + 1) = some v ∧
      Bytes.readLE16 r (i.offset + 1) = some (((v : Int) + k) % 65536).toNat

/-- Relocating by `k` raises each complete call's index by `k`. -/
theorem shiftsCalls_relocate (k : Int) (code : List UInt8) :
    ShiftsCalls k code (relocate (UInt16.ofInt k) code) where
  length := length_relocate _ code
  others _ hp := getElem?_relocate hp
  calls i hi hop ht := by
    refine ⟨Bytes.leValue i.operands, ?_, ?_⟩
    · rw [Bytes.readLE16, ← length_operands_of_call hi hop ht, readLE_operands hi ht]
    · rw [readLE16_relocate hi hop ht]
      have hk : (UInt16.ofInt k).toNat = (k % 65536).toNat := by
        simp [UInt16.ofInt, UInt16.toNat_ofNat']
        omega
      simp only [hk, Option.some.injEq]
      omega

/-- **Relocation raises call indices and touches nothing else.** Relocating code by any offset
`k` keeps its length and every byte except the two index bytes of each complete call of the
walk, where the little-endian index `v` becomes `v + k` modulo `2^16`. So the relocated call list
is the old one with `k` added to every entry, relocating by `a` and then by `b` is relocating by
`a + b`, and an offset that is a multiple of `2^16` changes nothing. -/
theorem relocate_shifts_call_indices (code : List UInt8) :
    (∀ k : Int, ShiftsCalls k code (relocate (UInt16.ofInt k) code) ∧
      callTargets (relocate (UInt16.ofInt k) code) =
        (callTargets code).map (· + UInt16.ofInt k)) ∧
    (∀ a b : Int, relocate (UInt16.ofInt b) (relocate (UInt16.ofInt a) code) =
      relocate (UInt16.ofInt (a + b)) code) ∧
    (∀ k : Int, 65536 ∣ k → relocate (UInt16.ofInt k) code = code) := by
  refine ⟨fun k => ⟨shiftsCalls_relocate k code, callTargets_relocate _ code⟩,
    fun a b => ?_, fun k hk => relocate_ofInt_of_dvd hk code⟩
  rw [relocate_relocate, UInt16.ofInt_add]

-- the call at 0 wraps from `0xFFFF` to `1`; the `0x50` operand of `LIT_U8` and the truncated
-- call at the end stay
example : relocate (UInt16.ofInt 2) [0x50, 0xFF, 0xFF, 0x76, 0x50, 0x50, 0x01] =
    [0x50, 0x01, 0x00, 0x76, 0x50, 0x50, 0x01] := by
  decide +kernel

end Code

end StackLink
