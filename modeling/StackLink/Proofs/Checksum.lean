import Mathlib
import StackLink.Wire.Frame

/-!
# What the frame checksum detects

The frame checksum is an 8-bit cyclic redundancy check with generator `x^8 + x^2 + x + 1`
and a clear initial register. This file shows which corruptions of a checked frame it is
sure to catch.

**Every error confined to eight consecutive bits, and every error of odd weight, is
detected** (`StackLink.verifyCrc_detects_bursts_and_odd_weight`). This covers any change
to the bytes after the marker: the length field, the slot byte, the body and the checksum
byte itself. In particular any change to a single byte is detected
(`StackLink.verifyCrc_set_xor`). The proof rests on four facts about the register:

* **the shift is linear** for exclusive or (`StackLink.Crc.shift_xor`), so the checksum of
  two byte strings added bytewise is the sum of their checksums
  (`StackLink.Crc.crc8_zipWith_xor`), and a frame passes its check exactly when the checksum
  of everything after its marker is zero (`StackLink.verifyCrc_eq_true_iff`). A corrupted
  frame therefore passes again exactly when the error pattern alone has checksum zero
  (`StackLink.verifyCrc_corrupt_eq_true_iff`);
* **the byte-at-a-time register is a serial divider** that takes the message one bit at a
  time, most significant bit first (`StackLink.Crc.crc8_eq_foldl_feedBit`);
* a serial step flips the parity of the register exactly when the bit fed is set
  (`StackLink.Crc.count_feedBit`), because the generator has an even number of terms, that
  is, `x + 1` divides it. So a register fed an odd number of ones is never clear
  (`StackLink.Crc.crc8_ne_zero_of_odd`);
* the shift loses nothing (`StackLink.Crc.shift_eq_zero`), because the generator's constant
  term is set, and eight bits fed into a clear register leave it clear only when all are
  clear (`StackLink.Crc.foldl_feedBit_eight`), because the generator has degree eight.
  Zeros before and after a burst change neither fact (`StackLink.Crc.crc8_ne_zero_of_burst`).

The last two are checks over the 256 register values, which the kernel runs.
-/

namespace StackLink.Crc

/-! ### The shift is linear -/

theorem top_cases : ∀ a : UInt8, a &&& 0x80 = 0 ∨ a &&& 0x80 = 0x80 := by decide +kernel

theorem xor_and_distrib (a b c : UInt8) : (a ^^^ b) &&& c = (a &&& c) ^^^ (b &&& c) := by
  apply UInt8.toBitVec_inj.mp
  ext i hi
  simp only [UInt8.toBitVec_and, UInt8.toBitVec_xor, BitVec.getElem_and, BitVec.getElem_xor]
  cases a.toBitVec[i] <;> cases b.toBitVec[i] <;> simp

/-- What a shift adds besides moving the bits up: the generator, when the top bit was set. -/
def feedback (c : UInt8) : UInt8 := if c &&& 0x80 ≠ 0 then poly else 0

theorem shift_eq (c : UInt8) : shift c = (c <<< 1) ^^^ feedback c := by
  unfold shift feedback
  split <;> simp

theorem feedback_xor (a b : UInt8) : feedback (a ^^^ b) = feedback a ^^^ feedback b := by
  rcases top_cases a with ha | ha <;> rcases top_cases b with hb | hb <;>
    simp [feedback, xor_and_distrib, ha, hb]

theorem shift_xor (a b : UInt8) : shift (a ^^^ b) = shift a ^^^ shift b := by
  rw [shift_eq, shift_eq, shift_eq, feedback_xor, UInt8.shiftLeft_xor]
  ac_rfl

theorem repeat_shift_xor (n : Nat) (a b : UInt8) :
    Nat.repeat shift n (a ^^^ b) = Nat.repeat shift n a ^^^ Nat.repeat shift n b := by
  induction n with
  | zero => rfl
  | succ n ih => simp only [Nat.repeat, ih, shift_xor]

theorem addByte_xor (r s a b : UInt8) :
    addByte (r ^^^ s) (a ^^^ b) = addByte r a ^^^ addByte s b := by
  simp only [addByte, ← repeat_shift_xor]
  congr 1
  ac_rfl

@[simp] theorem shift_zero : shift 0 = 0 := by decide

theorem repeat_shift_zero (n : Nat) : Nat.repeat shift n 0 = 0 := by
  induction n with
  | zero => rfl
  | succ n ih => simp only [Nat.repeat, ih, shift_zero]

/-- The shift clears only a clear register: the generator's constant term is set. -/
theorem shift_eq_zero : ∀ a : UInt8, shift a = 0 → a = 0 := by decide +kernel

theorem repeat_shift_eq_zero {n : Nat} {a : UInt8} (h : Nat.repeat shift n a = 0) : a = 0 := by
  induction n with
  | zero => exact h
  | succ n ih => exact ih (shift_eq_zero _ h)

theorem addByte_eq_zero_iff {r c : UInt8} : addByte r c = 0 ↔ r = c := by
  constructor
  · intro h
    exact UInt8.xor_eq_zero_iff.mp (repeat_shift_eq_zero h)
  · rintro rfl
    rw [addByte, UInt8.xor_self, repeat_shift_zero]

/-! ### Byte strings -/

theorem foldl_addByte_zipWith {as bs : List UInt8} (h : as.length = bs.length) (r s : UInt8) :
    (List.zipWith (· ^^^ ·) as bs).foldl addByte (r ^^^ s) =
      as.foldl addByte r ^^^ bs.foldl addByte s := by
  induction as generalizing bs r s with
  | nil => cases bs <;> simp_all
  | cons a as ih =>
    cases bs with
    | nil => simp at h
    | cons b bs =>
      simp only [List.zipWith_cons_cons, List.foldl_cons, addByte_xor]
      exact ih (by simpa using h) _ _

/-- **The checksum is linear**: the checksum of two strings of one length added bytewise is
the sum of their checksums. -/
theorem crc8_zipWith_xor {as bs : List UInt8} (h : as.length = bs.length) :
    crc8 (List.zipWith (· ^^^ ·) as bs) = crc8 as ^^^ crc8 bs := by
  simpa [crc8] using foldl_addByte_zipWith h 0 0

theorem crc8_append_singleton (xs : List UInt8) (c : UInt8) :
    crc8 (xs ++ [c]) = addByte (crc8 xs) c := by
  simp [crc8, List.foldl_append]

/-! ### Bits and the serial divider -/

/-- The bits of a byte, most significant first. -/
def byteBits (b : UInt8) : List Bool := [7, 6, 5, 4, 3, 2, 1, 0].map b.toNat.testBit

/-- The bits of a byte string, each byte's most significant bit first. -/
def bits (bs : List UInt8) : List Bool := bs.flatMap byteBits

@[simp] theorem length_byteBits (b : UInt8) : (byteBits b).length = 8 := rfl

@[simp] theorem bits_nil : bits [] = [] := rfl

@[simp] theorem bits_cons (b : UInt8) (bs : List UInt8) : bits (b :: bs) = byteBits b ++ bits bs :=
  rfl

@[simp] theorem bits_append (as bs : List UInt8) : bits (as ++ bs) = bits as ++ bits bs :=
  List.flatMap_append

@[simp] theorem bits_replicate_zero (n : Nat) :
    bits (List.replicate n 0) = List.replicate (8 * n) false := by
  induction n with
  | zero => rfl
  | succ n ih =>
    rw [List.replicate_succ, bits_cons, ih, Nat.mul_succ, Nat.add_comm, List.replicate_add]
    rfl

/-- One bit into the register, as a serial divider takes it: added at the top, then shifted
out. -/
def feedBit (r : UInt8) (x : Bool) : UInt8 := shift (if x then r ^^^ 0x80 else r)

theorem feedBit_eq (r : UInt8) (x : Bool) : feedBit r x = shift r ^^^ feedBit 0 x := by
  cases x <;> simp [feedBit, shift_xor]

/-- Feeding bits into a register is shifting the register and, apart, feeding them into a
clear one. -/
theorem foldl_feedBit (r : UInt8) (xs : List Bool) :
    xs.foldl feedBit r = Nat.repeat shift xs.length r ^^^ xs.foldl feedBit 0 := by
  induction xs using List.reverseRecOn with
  | nil => simp [Nat.repeat]
  | append_singleton xs x ih =>
    rw [List.foldl_append, List.foldl_append, List.foldl_cons, List.foldl_cons, List.foldl_nil,
      List.foldl_nil, ih, feedBit_eq, feedBit_eq (List.foldl feedBit 0 xs), shift_xor]
    simp only [List.length_append, List.length_singleton, Nat.repeat]
    ac_rfl

theorem repeat_shift_eight : ∀ b : UInt8, Nat.repeat shift 8 b = (byteBits b).foldl feedBit 0 := by
  decide +kernel

theorem addByte_eq_foldl_feedBit (r b : UInt8) : addByte r b = (byteBits b).foldl feedBit r := by
  rw [foldl_feedBit, addByte, repeat_shift_xor, repeat_shift_eight b, length_byteBits]

theorem foldl_addByte (r : UInt8) (bs : List UInt8) :
    bs.foldl addByte r = (bits bs).foldl feedBit r := by
  induction bs generalizing r with
  | nil => rfl
  | cons b bs ih =>
    rw [List.foldl_cons, ih, addByte_eq_foldl_feedBit, bits_cons, List.foldl_append]

/-- **The checksum is a serial divider**: taking a byte at a time is taking its bits one at
a time, most significant first. -/
theorem crc8_eq_foldl_feedBit (bs : List UInt8) : crc8 bs = (bits bs).foldl feedBit 0 :=
  foldl_addByte 0 bs

/-! ### Odd weight -/

/-- A serial step flips the register's parity exactly when the bit fed is set: the generator
has an even number of terms. -/
theorem count_feedBit : ∀ (r : UInt8) (x : Bool),
    (byteBits (feedBit r x)).count true % 2 = ((byteBits r).count true + x.toNat) % 2 := by
  decide +kernel

theorem count_foldl_feedBit (r : UInt8) (xs : List Bool) :
    (byteBits (xs.foldl feedBit r)).count true % 2 =
      ((byteBits r).count true + xs.count true) % 2 := by
  induction xs generalizing r with
  | nil => simp
  | cons x xs ih =>
    have hstep := count_feedBit r x
    rw [List.foldl_cons, ih, List.count_cons]
    cases x <;> simp only [Bool.toNat_false, Bool.toNat_true] at hstep <;> simp <;> omega

theorem crc8_ne_zero_of_odd {e : List UInt8} (h : (bits e).count true % 2 = 1) : crc8 e ≠ 0 := by
  intro h0
  have hc := count_foldl_feedBit 0 (bits e)
  rw [← crc8_eq_foldl_feedBit, h0] at hc
  have : (byteBits 0).count true = 0 := by decide
  omega

/-! ### Bursts -/

/-- The set bits of `xs` lie within `n` consecutive positions. -/
def Burst (n : Nat) (xs : List Bool) : Prop :=
  ∃ k, ∀ i, xs[i]? = some true → k ≤ i ∧ i < k + n

theorem Burst.of_split {n a c : Nat} {w xs : List Bool}
    (hs : xs = List.replicate a false ++ w ++ List.replicate c false) (hw : w.length ≤ n) :
    Burst n xs := by
  subst hs
  refine ⟨a, fun i hi => ?_⟩
  rcases Nat.lt_or_ge i a with h1 | h1
  · rw [List.append_assoc, List.getElem?_append_left (by simpa using h1), List.getElem?_replicate,
      if_pos h1] at hi
    cases hi
  · refine ⟨h1, ?_⟩
    by_contra h2
    rw [List.getElem?_append_right (by simp; omega), List.getElem?_replicate] at hi
    split at hi <;> cases hi

theorem eq_replicate_false_of_getElem? {xs : List Bool} (h : ∀ i : Nat, xs[i]? ≠ some true) :
    xs = List.replicate xs.length false := by
  rw [List.eq_replicate_iff]
  refine ⟨rfl, fun b hb => ?_⟩
  obtain ⟨i, hi⟩ := List.mem_iff_getElem?.mp hb
  cases b
  · rfl
  · exact absurd hi (h i)

/-- A burst of at most eight bits in a list of at least eight lies in a window of exactly
eight, with zeros around it. -/
theorem Burst.split {xs : List Bool} (h : Burst 8 xs) (hlen : 8 ≤ xs.length) :
    ∃ a w c, xs = List.replicate a false ++ w ++ List.replicate c false ∧ w.length = 8 := by
  obtain ⟨k, hk⟩ := h
  -- the window, moved back so that it fits inside the list
  let a := min k (xs.length - 8)
  refine ⟨a, (xs.drop a).take 8, xs.length - (a + 8), ?_, by simp; omega⟩
  have hpre : xs.take a = List.replicate a false := by
    have : xs.take a = List.replicate (xs.take a).length false :=
      eq_replicate_false_of_getElem? fun i hi => by
        rw [List.getElem?_take] at hi
        split at hi
        · have := hk i hi; omega
        · cases hi
    rw [this, List.length_take]; congr 1; omega
  have hpost : xs.drop (a + 8) = List.replicate (xs.length - (a + 8)) false := by
    have : xs.drop (a + 8) = List.replicate (xs.drop (a + 8)).length false :=
      eq_replicate_false_of_getElem? fun i hi => by
        rw [List.getElem?_drop] at hi
        have := hk _ hi
        have : a + 8 + i < xs.length := by
          by_contra hge; rw [List.getElem?_eq_none (by omega)] at hi; cases hi
        omega
    rw [this, List.length_drop]
  rw [← hpre, ← hpost, List.append_assoc, ← List.drop_drop, List.take_append_drop,
    List.take_append_drop]

theorem foldl_feedBit_zeros (n : Nat) : (List.replicate n false).foldl feedBit 0 = 0 := by
  induction n with
  | zero => rfl
  | succ n ih => rw [List.replicate_succ', List.foldl_append, ih]; rfl

/-- Eight bits fed into a clear register leave it clear only when all eight are clear: the
generator has degree eight. -/
theorem foldl_feedBit_eight : ∀ x₀ x₁ x₂ x₃ x₄ x₅ x₆ x₇ : Bool,
    [x₀, x₁, x₂, x₃, x₄, x₅, x₆, x₇].foldl feedBit 0 = 0 →
      [x₀, x₁, x₂, x₃, x₄, x₅, x₆, x₇] = List.replicate 8 false := by
  decide +kernel

theorem foldl_feedBit_window {w : List Bool} (hw : w.length = 8) (ht : true ∈ w) :
    w.foldl feedBit 0 ≠ 0 := by
  match w, hw with
  | [x₀, x₁, x₂, x₃, x₄, x₅, x₆, x₇], _ =>
    intro h
    rw [foldl_feedBit_eight _ _ _ _ _ _ _ _ h] at ht
    simp at ht

theorem crc8_ne_zero_of_burst {e : List UInt8} (h : Burst 8 (bits e)) (hne : true ∈ bits e) :
    crc8 e ≠ 0 := by
  have hlen : 8 ≤ (bits e).length := by
    rcases e with _ | ⟨b, e⟩
    · simp at hne
    · simp
  obtain ⟨a, w, c, hs, hw⟩ := h.split hlen
  have ht : true ∈ w := by
    rw [hs] at hne
    simpa using hne
  -- the zeros before the window leave the register clear, those after only shift it
  intro h0
  rw [crc8_eq_foldl_feedBit, hs, List.foldl_append, List.foldl_append, foldl_feedBit_zeros,
    foldl_feedBit, foldl_feedBit_zeros, UInt8.xor_zero] at h0
  exact foldl_feedBit_window hw ht (repeat_shift_eq_zero h0)

end StackLink.Crc

namespace StackLink

open Crc

/-- `f` with the error pattern `e` added to every byte after the first. -/
def corrupt (f e : List UInt8) : List UInt8 := f.take 1 ++ List.zipWith (· ^^^ ·) (f.drop 1) e

/-- A frame passes its checksum when it is long enough and the checksum of everything after
the marker, the checksum byte included, is zero. -/
theorem verifyCrc_eq_true_iff (f : List UInt8) :
    verifyCrc f = true ↔ minFrameSize ≤ f.length ∧ crc8 (f.drop 1) = 0 := by
  unfold verifyCrc
  split
  · rename_i hlt
    simp only [Bool.false_eq_true, false_iff, not_and]
    omega
  · rename_i hge
    obtain ⟨m, t, rfl⟩ : ∃ m t, f = m :: t :=
      List.exists_cons_of_ne_nil (by rintro rfl; simp [minFrameSize, headerSize] at hge)
    have ht : t ≠ [] := by rintro rfl; simp [minFrameSize, headerSize] at hge
    obtain ⟨xs, c, rfl⟩ : ∃ xs c, t = xs ++ [c] :=
      ⟨t.dropLast, t.getLast ht, (List.dropLast_append_getLast ht).symm⟩
    simp only [← List.cons_append, List.getLast?_concat, List.drop_one, List.tail_cons,
      List.tail_append_of_ne_nil (List.cons_ne_nil _ _), List.dropLast_concat,
      crc8_append_singleton, addByte_eq_zero_iff]
    have hlen : minFrameSize ≤ (m :: xs ++ [c]).length := by
      rw [List.cons_append]; omega
    simp only [beq_iff_eq, Option.some.injEq, hlen, true_and]
    exact eq_comm

theorem true_mem_bits {e : List UInt8} (h : ∃ b ∈ e, b ≠ 0) : true ∈ bits e := by
  have hbyte : ∀ b : UInt8, b ≠ 0 → true ∈ byteBits b := by decide +kernel
  obtain ⟨b, hb, hne⟩ := h
  exact List.mem_flatMap.mpr ⟨b, hb, hbyte b hne⟩

/-- A checked frame corrupted after its marker passes the check again exactly when the
checksum of the error pattern is zero. -/
theorem verifyCrc_corrupt_eq_true_iff {f e : List UInt8} (hf : verifyCrc f = true)
    (hlen : e.length = f.length - 1) : verifyCrc (corrupt f e) = true ↔ crc8 e = 0 := by
  obtain ⟨hmin, hzero⟩ := (verifyCrc_eq_true_iff f).mp hf
  obtain ⟨m, t, rfl⟩ : ∃ m t, f = m :: t :=
    List.exists_cons_of_ne_nil (by rintro rfl; simp [minFrameSize, headerSize] at hmin)
  simp only [List.length_cons, Nat.add_sub_cancel] at hlen
  simp only [List.drop_one, List.tail_cons] at hzero
  have hc : corrupt (m :: t) e = m :: List.zipWith (· ^^^ ·) t e := rfl
  rw [hc, verifyCrc_eq_true_iff, List.drop_one, List.tail_cons, crc8_zipWith_xor hlen.symm, hzero,
    UInt8.zero_xor]
  simp only [List.length_cons, List.length_zipWith, hlen, Nat.min_self, and_iff_right_iff_imp]
  intro
  simpa [hlen] using hmin

/-- A corruption is detected when the checksum of its error pattern is not zero. -/
theorem verifyCrc_corrupt_eq_false {f e : List UInt8} (hf : verifyCrc f = true)
    (hlen : e.length = f.length - 1) (he : crc8 e ≠ 0) : verifyCrc (corrupt f e) = false := by
  rw [← Bool.not_eq_true, verifyCrc_corrupt_eq_true_iff hf hlen]
  exact he

/-- **The checksum detects every short burst and every odd-weight error.** Take a frame that
passes its checksum and a nonzero error pattern over the bytes after the marker, read most
significant bit first. If the pattern's set bits lie within eight consecutive bits, or there
is an odd number of them, the corrupted frame fails the check. -/
theorem verifyCrc_detects_bursts_and_odd_weight {f e : List UInt8} (hf : verifyCrc f = true)
    (hlen : e.length = f.length - 1) (hne : ∃ b ∈ e, b ≠ 0)
    (he : Burst 8 (bits e) ∨ (bits e).count true % 2 = 1) :
    verifyCrc (corrupt f e) = false := by
  apply verifyCrc_corrupt_eq_false hf hlen
  rcases he with hburst | hodd
  · exact crc8_ne_zero_of_burst hburst (true_mem_bits hne)
  · exact crc8_ne_zero_of_odd hodd

/-- A burst of two bits across the last two bytes of a `PING` frame, the low bit of the slot
byte and the top bit of the checksum byte, is detected. -/
theorem verifyCrc_detects_straddling_burst :
    verifyCrc (wrap 0x20 0 []) = true ∧ [0, 0, 0x01, 0x80].length = (wrap 0x20 0 []).length - 1 ∧
      (∃ b ∈ ([0, 0, 0x01, 0x80] : List UInt8), b ≠ 0) ∧
      (Burst 8 (bits [0, 0, 0x01, 0x80]) ∨ (bits [0, 0, 0x01, 0x80]).count true % 2 = 1) ∧
      verifyCrc (corrupt (wrap 0x20 0 []) [0, 0, 0x01, 0x80]) = false := by
  have hf : verifyCrc (wrap 0x20 0 []) = true := by decide +kernel
  have hburst : Burst 8 (bits [0, 0, 0x01, 0x80]) :=
    Burst.of_split (a := 23) (w := [true, true]) (c := 7) (by decide) (by decide)
  exact ⟨hf, rfl, ⟨0x01, by simp, by decide⟩, .inl hburst,
    verifyCrc_detects_bursts_and_odd_weight hf rfl ⟨0x01, by simp, by decide⟩ (.inl hburst)⟩

/-- **A frame changed in one byte after its marker fails its checksum**, whatever the change:
one byte is a burst of at most eight bits. -/
theorem verifyCrc_set_xor {f : List UInt8} (hf : verifyCrc f = true) {i : Nat} (hi0 : 0 < i)
    (hi : i < f.length) {d : UInt8} (hd : d ≠ 0) : verifyCrc (f.set i (f[i] ^^^ d)) = false := by
  obtain ⟨m, t, rfl⟩ : ∃ m t, f = m :: t := List.exists_cons_of_ne_nil (by rintro rfl; simp at hi)
  obtain ⟨j, rfl⟩ : ∃ j, i = j + 1 := ⟨i - 1, by omega⟩
  have hj : j < t.length := by simpa using hi
  -- the error pattern: `d` at the changed byte and zeros elsewhere
  let e := List.replicate j 0 ++ d :: List.replicate (t.length - j - 1) 0
  have hlen : e.length = t.length := by simp [e]; omega
  have hset : (m :: t).set (j + 1) ((m :: t)[j + 1] ^^^ d) = corrupt (m :: t) e := by
    simp only [List.set_cons_succ, List.getElem_cons_succ, corrupt, List.take_one, List.head?_cons,
      Option.toList_some, List.drop_one, List.tail_cons, List.singleton_append, List.cons.injEq,
      true_and]
    apply List.ext_getElem (by simp [hlen])
    intro k h₁ h₂
    simp only [List.getElem_set, List.getElem_zipWith, e, List.getElem_append, List.getElem_cons,
      List.getElem_replicate, List.length_replicate]
    -- before, at and after the changed byte
    rcases Nat.lt_trichotomy k j with hk | rfl | hk
    · simp [hk, Nat.ne_of_gt hk]
    · simp
    · simp [Nat.not_lt.mpr hk.le, Nat.ne_of_lt hk, Nat.sub_ne_zero_of_lt hk]
  have hburst : Burst 8 (bits e) :=
    Burst.of_split (a := 8 * j) (w := byteBits d) (c := 8 * (t.length - j - 1)) (by simp [e])
      (by simp)
  rw [hset]
  exact verifyCrc_corrupt_eq_false hf (by simpa using hlen)
    (crc8_ne_zero_of_burst hburst (true_mem_bits ⟨d, by simp [e], hd⟩))

end StackLink
