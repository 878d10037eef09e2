import Mathlib
import StackLink.Proofs.Fields

/-!
# Memory is bounds-checked, little-endian storage

A machine's memory is a byte array of a fixed size. The host reads and writes it through four
accessors (`readMemory`, `writeMemory` and their 32-bit forms) and a program through four
instructions (`LOAD`, `STORE`, `LOAD8`, `STORE8`), all behind one check: `width` bytes at
`addr` must lie inside memory, `addr + width ≤ size`, as numbers that never wrap
(`StackLink.Machine.span_eq`). An address within four bytes of `2^32` is therefore refused
like any other address past the end, however large the memory.

What a write does to memory is said once (`StackLink.Machine.Memory.Stores`): the size stays,
the written bytes stand at their addresses, and every other byte is as it was. `Memory.write`
does exactly that when the bytes fit (`StackLink.Machine.Memory.stores_write`), and what it
stores is read back (`StackLink.Machine.Memory.extract_of_stores`). Each instruction is the
bounds check and then its accessor (`StackLink.Machine.execute_load` and its three siblings),
so a load after a store reads through the store alone
(`StackLink.Machine.execute_load_of_stores`, `StackLink.Machine.execute_load8_of_stores`), and
what a store that fits writes is loaded back (`StackLink.Machine.execute_store_loads_back`,
`StackLink.Machine.execute_store8_loads_back`).

**Memory is bounds-checked little-endian storage**
(`StackLink.Machine.memory_is_checked_little_endian`): every access succeeds exactly when its
bytes fit; a failed access names its width, address and the memory size, and leaves the machine
as it was; a store changes nothing but the bytes it writes; and a load of the same width at the
same address reads back the stored value, the whole cell for a word and the low byte
zero-extended for a byte. A word is stored least significant byte first, so byte loads at its
four addresses read its bytes in that order.
-/

namespace StackLink

namespace Machine.Memory

/-- `mem'` is `mem` with `d` written at `a`: the same size, the bytes of `d` at `a` and on, and
every other byte as it was. -/
structure Stores (mem : Array UInt8) (a : Nat) (d : List UInt8) (mem' : Array UInt8) : Prop where
  size : mem'.size = mem.size
  get : ∀ j, mem'[j]? = if a ≤ j ∧ j < a + d.length then d[j - a]? else mem[j]?

variable {mem mem' : Array UInt8} {p a j k : Nat} {d : List UInt8}

@[simp] theorem size_write (mem : Array UInt8) (p : Nat) (d : List UInt8) :
    (write mem p d).size = mem.size := by
  induction d generalizing mem p with
  | nil => rfl
  | cons b bs ih => simp [write, ih]

/-- Bytes outside the written run keep their values. -/
theorem getElem?_write_of_outside (mem : Array UInt8) (d : List UInt8)
    (h : j < p ∨ p + d.length ≤ j) : (write mem p d)[j]? = mem[j]? := by
  induction d generalizing mem p with
  | nil => rfl
  | cons b bs ih =>
    simp only [List.length_cons] at h
    rw [write, ih _ (by omega), Array.getElem?_setIfInBounds, if_neg (by omega)]

/-- Inside memory, the written run holds the bytes written. -/
theorem getElem?_write_inside (mem : Array UInt8) (d : List UInt8) (hk : k < d.length)
    (hp : p + k < mem.size) : (write mem p d)[p + k]? = d[k]? := by
  induction d generalizing mem p k with
  | nil => simp at hk
  | cons b bs ih =>
    cases k with
    | zero =>
      rw [write, getElem?_write_of_outside _ _ (.inl (by omega)), Array.getElem?_setIfInBounds,
        if_pos (by omega), if_pos (by omega)]
      rfl
    | succ k =>
      rw [write, show p + (k + 1) = p + 1 + k by omega,
        ih _ (by simpa using hk) (by rw [Array.size_setIfInBounds]; omega)]
      rfl

/-- A run of bytes that fits is written as a store. -/
theorem stores_write (h : p + d.length ≤ mem.size) : Stores mem p d (write mem p d) := by
  refine ⟨size_write mem p d, fun j => ?_⟩
  split_ifs with hj
  · obtain ⟨k, rfl⟩ : ∃ k, j = p + k := ⟨j - p, by omega⟩
    rw [getElem?_write_inside mem d (by omega) (by omega), Nat.add_sub_cancel_left]
  · exact getElem?_write_of_outside mem d (by omega)

/-- **What was stored is read back**: the bytes at the written addresses are the bytes
written. -/
theorem extract_of_stores (h : Stores mem a d mem') :
    (mem'.extract a (a + d.length)).toList = d := by
  apply List.ext_getElem?
  intro k
  rw [Array.getElem?_toList, Array.getElem?_extract]
  split_ifs with hk
  · rw [h.get, if_pos (by omega), Nat.add_sub_cancel_left]
  · -- past the run on either side, both are empty
    by_cases hd : k < d.length
    · -- the run would leave memory: then the old memory was too small for it
      have hsize := h.size
      have : mem'[a + k]? = d[k]? := by rw [h.get, if_pos (by omega), Nat.add_sub_cancel_left]
      rw [Array.getElem?_eq_none (by omega)] at this
      exact this
    · rw [List.getElem?_eq_none (by omega)]

/-- One byte of the run, read back on its own. -/
theorem extract_one_of_stores (h : Stores mem a d mem') (hfit : a + d.length ≤ mem.size)
    (hk : k < d.length) : (mem'.extract (a + k) (a + k + 1)).toList = [d[k]] := by
  apply List.ext_getElem?
  intro j
  rw [Array.getElem?_toList, Array.getElem?_extract, h.size]
  split_ifs with hj
  · -- the one byte there
    obtain rfl : j = 0 := by omega
    rw [h.get, if_pos (by omega)]
    simp [List.getElem?_eq_getElem hk]
  · rw [List.getElem?_eq_none (by simp only [List.length_singleton]; omega)]

/-- Every byte the store does not write is kept. -/
theorem Stores.getElem?_of_outside (h : Stores mem a d mem') (hj : j < a ∨ a + d.length ≤ j) :
    mem'[j]? = mem[j]? := by
  rw [h.get, if_neg (by omega)]

end Machine.Memory

/-! ### Bytes of a word -/

namespace Bytes

/-- Byte `k` of a 32-bit field is the value's `k`-th byte from the least significant one. -/
theorem getElem?_le32 (n : Nat) (hk : k < 4) : (le32 n)[k]? = some (UInt8.ofNat (n / 256 ^ k)) := by
  interval_cases k <;> simp [le32]

theorem getElem_le32 (n : Nat) (hk : k < (le32 n).length) :
    (le32 n)[k] = UInt8.ofNat (n / 256 ^ k) :=
  Option.some.inj ((List.getElem?_eq_getElem hk).symm.trans (getElem?_le32 n (by simpa using hk)))

theorem leValue_singleton (b : UInt8) : leValue [b] = b.toNat := by
  simp [leValue]

end Bytes

/-- A cell stored as 32 bits and read back as 32 bits. -/
theorem Int32.toInt32_ofNat_leValue_le32 (v : Int32) :
    (UInt32.ofNat (Bytes.leValue (Bytes.le32 v.toUInt32.toNat))).toInt32 = v := by
  rw [Bytes.leValue_le32 v.toUInt32.toNat_lt]
  simp

/-- The low byte of a cell, zero-extended, is the cell masked to eight bits. -/
theorem Int32.ofNat_toUInt8 (v : Int32) : Int32.ofNat v.toUInt32.toUInt8.toNat = v &&& 255 := by
  rw [← Int32.toBitVec_inj]
  apply BitVec.eq_of_toNat_eq
  simp only [UInt32.toNat_toUInt8, Nat.reducePow, Int32.toBitVec_ofNat', BitVec.toNat_ofNat,
    Int32.toBitVec_and, Int32.toBitVec_ofNat, BitVec.ofNat_eq_ofNat, BitVec.toNat_and, Nat.reduceMod]
  -- masking with `2^8 - 1` keeps the value modulo `2^8`
  have h : v.toUInt32.toNat = v.toBitVec.toNat := rfl
  rw [h, show (255 : Nat) = 2 ^ 8 - 1 from rfl, Nat.and_two_pow_sub_one_eq_mod]
  omega

namespace Machine

variable {m m' : Machine} {a : UInt32} {n : Nat} {d : List UInt8}

/-! ### The accessors -/

/-- **The bounds check**: `width` bytes at `addr` pass exactly when they end inside memory,
counted without wrapping. -/
theorem span_eq (m : Machine) (a : UInt32) (w : Nat) :
    m.span a w = if a.toNat + w ≤ m.mem.size then .ok () else .error (.memoryBounds w a m.mem.size) := by
  unfold span
  by_cases h : a.toNat + w ≤ m.mem.size
  · rw [if_neg (by omega), if_pos h]
  · rw [if_pos (by omega), if_neg h]

theorem readMemory_eq (m : Machine) (a : UInt32) (n : Nat) :
    m.readMemory a n = if a.toNat + n ≤ m.mem.size then .ok (m.mem.extract a.toNat (a.toNat + n)).toList
      else .error (.memoryBounds n a m.mem.size) := by
  unfold readMemory
  rw [span_eq]
  split_ifs <;> rfl

theorem writeMemory_eq (m : Machine) (a : UInt32) (d : List UInt8) :
    m.writeMemory a d = if a.toNat + d.length ≤ m.mem.size then
        .ok { m with mem := Memory.write m.mem a.toNat d }
      else .error (.memoryBounds d.length a m.mem.size) := by
  unfold writeMemory
  rw [span_eq]
  split_ifs <;> rfl

theorem readMemory32_eq (m : Machine) (a : UInt32) :
    m.readMemory32 a = if a.toNat + 4 ≤ m.mem.size then
        .ok (UInt32.ofNat (Bytes.leValue (m.mem.extract a.toNat (a.toNat + 4)).toList))
      else .error (.memoryBounds 4 a m.mem.size) := by
  unfold readMemory32
  rw [readMemory_eq]
  split_ifs <;> rfl

/-- A write that succeeds stores its bytes and changes nothing else. -/
theorem writeMemory_eq_ok_iff : m.writeMemory a d = .ok m' ↔
    a.toNat + d.length ≤ m.mem.size ∧ m' = { m with mem := Memory.write m.mem a.toNat d } := by
  rw [writeMemory_eq]
  split_ifs with h <;> simp [h, eq_comm]

/-- What a write that succeeds leaves: the machine with its bytes stored at `a`, and those
bytes read back there. -/
theorem writeMemory_stores (h : m.writeMemory a d = .ok m') :
    (∃ mem', m' = { m with mem := mem' } ∧ Memory.Stores m.mem a.toNat d mem') ∧
      m'.readMemory a d.length = .ok d := by
  obtain ⟨hfit, rfl⟩ := writeMemory_eq_ok_iff.mp h
  have hst := Memory.stores_write hfit
  refine ⟨⟨_, rfl, hst⟩, ?_⟩
  rw [readMemory_eq, if_pos (by simpa using hfit)]
  exact congrArg Except.ok (Memory.extract_of_stores hst)

theorem readMemory_ok_iff : (∃ bs, m.readMemory a n = .ok bs) ↔ a.toNat + n ≤ m.mem.size := by
  rw [readMemory_eq]
  split_ifs with h <;> simp [h]

theorem readMemory32_ok_iff : (∃ u, m.readMemory32 a = .ok u) ↔ a.toNat + 4 ≤ m.mem.size := by
  rw [readMemory32_eq]
  split_ifs with h <;> simp [h]

theorem writeMemory_ok_iff : (∃ m', m.writeMemory a d = .ok m') ↔ a.toNat + d.length ≤ m.mem.size :=
  ⟨fun ⟨_, h⟩ => (writeMemory_eq_ok_iff.mp h).1, fun h => ⟨_, writeMemory_eq_ok_iff.mpr ⟨h, rfl⟩⟩⟩

/-- **A word written is read back**, whole and byte by byte, least significant byte first. -/
theorem writeMemory32_reads {u : UInt32} (h : m.writeMemory32 a u = .ok m') :
    m'.readMemory32 a = .ok u ∧
      ∀ a' : UInt32, a.toNat ≤ a'.toNat → a'.toNat < a.toNat + 4 →
        m'.readMemory a' 1 = .ok [UInt8.ofNat (u.toNat / 256 ^ (a'.toNat - a.toNat))] := by
  obtain ⟨⟨mem', rfl, hst⟩, hread⟩ := writeMemory_stores h
  have hfit : a.toNat + 4 ≤ m.mem.size := (writeMemory_eq_ok_iff.mp h).1
  refine ⟨?_, fun a' h₁ h₂ => ?_⟩
  · rw [Bytes.length_le32] at hread
    rw [readMemory32, hread]
    simp only [bind, Except.bind, pure, Except.pure]
    rw [Bytes.leValue_le32 u.toNat_lt, UInt32.ofNat_toNat]
  · -- the byte at `a'` is byte `a' - a` of the word
    have hk : a'.toNat - a.toNat < (Bytes.le32 u.toNat).length := by simp; omega
    rw [readMemory_eq, if_pos (by simp only [hst.size]; omega),
      show a'.toNat = a.toNat + (a'.toNat - a.toNat) by omega,
      Memory.extract_one_of_stores hst (by simpa using hfit) hk, Bytes.getElem_le32,
      Nat.add_sub_cancel_left]

/-! ### The instructions -/

variable {c : Cursor} {i : Instruction} {x v : Int32} {rest : List Int32}

/-- `LOAD` replaces an address by the word there, or fails leaving the machine. -/
theorem execute_load (h : m.data = x :: rest) :
    m.execute c i .load = if x.toUInt32.toNat + 4 ≤ m.mem.size then
        .next { m with data := (UInt32.ofNat (Bytes.leValue
          (m.mem.extract x.toUInt32.toNat (x.toUInt32.toNat + 4)).toList)).toInt32 :: rest } c
      else .fail m (.exec ⟨c.word.name, i.offset, i.opcode, .memoryBounds 4 x.toUInt32 m.mem.size⟩) := by
  simp only [execute, h, readMemory32_eq]
  split_ifs <;> rfl

/-- `LOAD8` replaces an address by the byte there, or fails leaving the machine. -/
theorem execute_load8 (h : m.data = x :: rest) :
    m.execute c i .load8 = if x.toUInt32.toNat + 1 ≤ m.mem.size then
        .next { m with data := Int32.ofNat (Bytes.leValue
          (m.mem.extract x.toUInt32.toNat (x.toUInt32.toNat + 1)).toList) :: rest } c
      else .fail m (.exec ⟨c.word.name, i.offset, i.opcode, .memoryBounds 1 x.toUInt32 m.mem.size⟩) := by
  simp only [execute, h, readMemory_eq]
  split_ifs <;> rfl

/-- `STORE` writes the second cell as a word at the address on top and drops both, or fails
leaving the machine. -/
theorem execute_store (h : m.data = x :: v :: rest) :
    m.execute c i .store = if x.toUInt32.toNat + 4 ≤ m.mem.size then
        .next
          { m with
            data := rest
            mem := Memory.write m.mem x.toUInt32.toNat (Bytes.le32 v.toUInt32.toNat) } c
      else .fail m (.exec ⟨c.word.name, i.offset, i.opcode, .memoryBounds 4 x.toUInt32 m.mem.size⟩) := by
  simp only [execute, h, writeMemory32, writeMemory_eq, Bytes.length_le32]
  split_ifs <;> rfl

/-- `STORE8` writes the low byte of the second cell at the address on top and drops both, or
fails leaving the machine. -/
theorem execute_store8 (h : m.data = x :: v :: rest) :
    m.execute c i .store8 = if x.toUInt32.toNat + 1 ≤ m.mem.size then
        .next
          { m with
            data := rest
            mem := Memory.write m.mem x.toUInt32.toNat [v.toUInt32.toUInt8] } c
      else .fail m (.exec ⟨c.word.name, i.offset, i.opcode, .memoryBounds 1 x.toUInt32 m.mem.size⟩) := by
  simp only [execute, h, writeMemory_eq, List.length_singleton]
  split_ifs <;> rfl

/-! ### Loads after stores -/

variable {mem₀ : Array UInt8} {a₀ : Nat}

/-- A word load where a word was stored reads the stored cell. -/
theorem execute_load_of_stores (hst : Memory.Stores mem₀ a₀ (Bytes.le32 v.toUInt32.toNat) m.mem)
    (hfit : a₀ + 4 ≤ mem₀.size) (h : m.data = x :: rest) (hx : x.toUInt32.toNat = a₀) :
    m.execute c i .load = .next { m with data := v :: rest } c := by
  have hread := Memory.extract_of_stores hst
  rw [Bytes.length_le32] at hread
  rw [execute_load h, if_pos (by rw [hst.size]; omega), hx, hread,
    Int32.toInt32_ofNat_leValue_le32]

/-- A byte load inside a stored run reads the byte stored there. -/
theorem execute_load8_of_stores (hst : Memory.Stores mem₀ a₀ d m.mem)
    (hfit : a₀ + d.length ≤ mem₀.size) (h : m.data = x :: rest) {k : Nat} (hk : k < d.length)
    (hx : x.toUInt32.toNat = a₀ + k) :
    m.execute c i .load8 = .next { m with data := Int32.ofNat d[k].toNat :: rest } c := by
  rw [execute_load8 h, if_pos (by rw [hst.size]; omega), hx,
    Memory.extract_one_of_stores hst hfit hk, Bytes.leValue_singleton]

variable {c' : Cursor} {i' : Instruction} {rest' : List Int32}

/-- **A word stored is loaded back**: a `STORE` that fits writes the four bytes of `v` at the
address on top, after which a `LOAD` there reads `v`, and a `LOAD8` inside the word reads its
byte at that place, least significant first. -/
theorem execute_store_loads_back (h : m.data = x :: v :: rest)
    (hfit : x.toUInt32.toNat + 4 ≤ m.mem.size) :
    ∃ mem', m.execute c i .store = .next { m with data := rest, mem := mem' } c ∧
      Memory.Stores m.mem x.toUInt32.toNat (Bytes.le32 v.toUInt32.toNat) mem' ∧
      ({ m with data := x :: rest', mem := mem' } : Machine).execute c' i' .load =
        .next { m with data := v :: rest', mem := mem' } c' ∧
      ∀ y : Int32, x.toUInt32.toNat ≤ y.toUInt32.toNat → y.toUInt32.toNat < x.toUInt32.toNat + 4 →
        ({ m with data := y :: rest', mem := mem' } : Machine).execute c' i' .load8 =
          .next { m with
            data := Int32.ofNat (v.toUInt32.toNat / 256 ^ (y.toUInt32.toNat - x.toUInt32.toNat) % 256) ::
              rest'
            mem := mem' } c' := by
  have hst := Memory.stores_write (d := Bytes.le32 v.toUInt32.toNat) (by simpa using hfit)
  refine ⟨_, by rw [execute_store h, if_pos hfit], hst, ?_⟩
  -- what follows reads the stored memory only through the store
  generalize Memory.write m.mem x.toUInt32.toNat (Bytes.le32 v.toUInt32.toNat) = mem' at hst ⊢
  refine ⟨execute_load_of_stores hst hfit rfl rfl, fun y h₁ h₂ => ?_⟩
  have hk : y.toUInt32.toNat - x.toUInt32.toNat < (Bytes.le32 v.toUInt32.toNat).length := by
    simp only [Bytes.length_le32]
    omega
  rw [execute_load8_of_stores (m := { m with data := y :: rest', mem := mem' }) hst
    (by simpa using hfit) rfl hk (by omega), Bytes.getElem_le32, UInt8.toNat_ofNat']

/-- **A byte stored is loaded back**: a `STORE8` that fits writes the low byte of `v` at the
address on top, after which a `LOAD8` there reads that byte zero-extended. -/
theorem execute_store8_loads_back (h : m.data = x :: v :: rest)
    (hfit : x.toUInt32.toNat + 1 ≤ m.mem.size) :
    ∃ mem', m.execute c i .store8 = .next { m with data := rest, mem := mem' } c ∧
      Memory.Stores m.mem x.toUInt32.toNat [v.toUInt32.toUInt8] mem' ∧
      ({ m with data := x :: rest', mem := mem' } : Machine).execute c' i' .load8 =
        .next { m with data := (v &&& 255) :: rest', mem := mem' } c' := by
  have hst := Memory.stores_write (d := [v.toUInt32.toUInt8]) (by simpa using hfit)
  refine ⟨_, by rw [execute_store8 h, if_pos hfit], hst, ?_⟩
  generalize Memory.write m.mem x.toUInt32.toNat [v.toUInt32.toUInt8] = mem' at hst ⊢
  rw [execute_load8_of_stores (m := { m with data := x :: rest', mem := mem' }) hst
    (by simpa using hfit) rfl (k := 0) (by simp) rfl]
  simp only [List.getElem_cons_zero, Int32.ofNat_toUInt8]

/-! ### The memory laws -/

/-- **Memory is bounds-checked little-endian storage.** Take any machine, so any memory size,
and the address `a` that a cell `x` names.

* The host's accessors succeed exactly when their bytes end inside memory, counted without
  wrapping; a write stores its bytes and changes nothing else, and reads them back; a word
  written is read back whole, and its bytes one by one least significant first.
* With `x` on the stack, `LOAD` and `LOAD8` succeed exactly when their 4 or 1 bytes fit, and
  otherwise fail naming width, address and size with the machine untouched.
* With `x` above `v`, `STORE` and `STORE8` fail the same way, or pop both cells and store `v`
  (its four bytes, or its low byte) at `a`, every other byte kept. A `LOAD` at `a` afterwards
  reads `v`, a `LOAD8` at `a + k` reads its `k`-th byte from the least significant, and after
  `STORE8` a `LOAD8` at `a` reads `v`'s low byte zero-extended. -/
theorem memory_is_checked_little_endian (m : Machine) (c c' : Cursor) (i i' : Instruction)
    (x v : Int32) (rest rest' : List Int32) :
    let a := x.toUInt32
    let outOfBounds (w : Nat) : Step :=
      .fail m (.exec ⟨c.word.name, i.offset, i.opcode, .memoryBounds w a m.mem.size⟩)
    (∀ n, (∃ bs, m.readMemory a n = .ok bs) ↔ a.toNat + n ≤ m.mem.size) ∧
    ((∃ u, m.readMemory32 a = .ok u) ↔ a.toNat + 4 ≤ m.mem.size) ∧
    (∀ d, (∃ m', m.writeMemory a d = .ok m') ↔ a.toNat + d.length ≤ m.mem.size) ∧
    (∀ d m', m.writeMemory a d = .ok m' →
      (∃ mem', m' = { m with mem := mem' } ∧ Memory.Stores m.mem a.toNat d mem') ∧
        m'.readMemory a d.length = .ok d) ∧
    (∀ u, (∃ m', m.writeMemory32 a u = .ok m') ↔ a.toNat + 4 ≤ m.mem.size) ∧
    (∀ u m', m.writeMemory32 a u = .ok m' → m'.readMemory32 a = .ok u ∧
      ∀ a' : UInt32, a.toNat ≤ a'.toNat → a'.toNat < a.toNat + 4 →
        m'.readMemory a' 1 = .ok [UInt8.ofNat (u.toNat / 256 ^ (a'.toNat - a.toNat))]) ∧
    (m.data = x :: rest →
      ((∃ u, m.execute c i .load = .next { m with data := u :: rest } c) ↔
          a.toNat + 4 ≤ m.mem.size) ∧
        (m.mem.size < a.toNat + 4 → m.execute c i .load = outOfBounds 4) ∧
        ((∃ u, m.execute c i .load8 = .next { m with data := u :: rest } c) ↔
          a.toNat + 1 ≤ m.mem.size) ∧
        (m.mem.size < a.toNat + 1 → m.execute c i .load8 = outOfBounds 1)) ∧
    (m.data = x :: v :: rest →
      (m.mem.size < a.toNat + 4 → m.execute c i .store = outOfBounds 4) ∧
        (a.toNat + 4 ≤ m.mem.size → ∃ mem',
          m.execute c i .store = .next { m with data := rest, mem := mem' } c ∧
          Memory.Stores m.mem a.toNat (Bytes.le32 v.toUInt32.toNat) mem' ∧
          ({ m with data := x :: rest', mem := mem' } : Machine).execute c' i' .load =
            .next { m with data := v :: rest', mem := mem' } c' ∧
          ∀ y : Int32, a.toNat ≤ y.toUInt32.toNat → y.toUInt32.toNat < a.toNat + 4 →
            ({ m with data := y :: rest', mem := mem' } : Machine).execute c' i' .load8 =
              .next { m with
                data := Int32.ofNat (v.toUInt32.toNat / 256 ^ (y.toUInt32.toNat - a.toNat) % 256) ::
                  rest'
                mem := mem' } c') ∧
        (m.mem.size < a.toNat + 1 → m.execute c i .store8 = outOfBounds 1) ∧
        (a.toNat + 1 ≤ m.mem.size → ∃ mem',
          m.execute c i .store8 = .next { m with data := rest, mem := mem' } c ∧
          Memory.Stores m.mem a.toNat [v.toUInt32.toUInt8] mem' ∧
          ({ m with data := x :: rest', mem := mem' } : Machine).execute c' i' .load8 =
            .next { m with data := (v &&& 255) :: rest', mem := mem' } c')) := by
  dsimp only
  refine ⟨fun n => readMemory_ok_iff, readMemory32_ok_iff, fun d => writeMemory_ok_iff,
    fun d m' h => writeMemory_stores h, fun u => writeMemory_ok_iff,
    fun u m' h => writeMemory32_reads h, fun h => ?_, fun h => ?_⟩
  · -- the loads: in bounds they replace the address, out of bounds they fail untouched
    refine ⟨?_, fun hout => ?_, ?_, fun hout => ?_⟩
    · rw [execute_load h]
      split_ifs with hfit <;> simp [hfit]
    · rw [execute_load h, if_neg (by omega)]
    · rw [execute_load8 h]
      split_ifs with hfit <;> simp [hfit]
    · rw [execute_load8 h, if_neg (by omega)]
  · -- the stores: out of bounds they fail untouched, in bounds they store and read back
    refine ⟨fun hout => ?_, fun hfit => execute_store_loads_back h hfit, fun hout => ?_,
      fun hfit => execute_store8_loads_back h hfit⟩
    · rw [execute_store h, if_neg (by omega)]
    · rw [execute_store8 h, if_neg (by omega)]

/-- In a 16-byte memory, `STORE` of `-2` at 12 fills the last word and a `LOAD` there reads
`-2` back; the same store at 13 would run past the end and fails with the machine untouched. -/
theorem last_word_stores_and_straddling_word_fails :
    let m : Machine := { Machine.new ⟨16, 256, 256, 64, 0⟩ with data := [12, -2] }
    let m₁ : Machine := { m with data := [13, -2] }
    let c : Cursor := ⟨⟨-1, [], []⟩, 0, [], 0⟩
    let i : Instruction := ⟨0, 0, [], false⟩
    m.data = 12 :: -2 :: [] ∧ (12 : Int32).toUInt32.toNat + 4 ≤ m.mem.size ∧
      (∃ mem', m.execute c i .store = .next { m with data := [], mem := mem' } c ∧
        ({ m with data := [12], mem := mem' } : Machine).execute c i .load =
          .next { m with data := [-2], mem := mem' } c) ∧
      m₁.data = 13 :: -2 :: [] ∧ m₁.mem.size < (13 : Int32).toUInt32.toNat + 4 ∧
      m₁.execute c i .store = .fail m₁ (.exec ⟨[], 0, 0, .memoryBounds 4 13 16⟩) := by
  intro m m₁ c i
  have hfit : (12 : Int32).toUInt32.toNat + 4 ≤ m.mem.size := by decide
  obtain ⟨-, hstore, -, -⟩ := (memory_is_checked_little_endian m c c i i 12 (-2) [] []).2.2.2.2.2.2.2 rfl
  obtain ⟨mem', hs, -, hl, -⟩ := hstore hfit
  have hout : m₁.mem.size < (13 : Int32).toUInt32.toNat + 4 := by decide
  exact ⟨rfl, hfit, ⟨mem', hs, hl⟩, rfl, hout,
    ((memory_is_checked_little_endian m₁ c c i i 13 (-2) [] []).2.2.2.2.2.2.2 rfl).1 hout⟩

end Machine

end StackLink
