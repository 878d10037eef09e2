import Mathlib
import StackLink.Proofs.StackEffects

/-!
# Integer arithmetic on the machine

A cell is a 32-bit two's-complement integer, and the two-operand instructions take the second
cell `a` and the top cell `b`. This file says what they compute, in terms of the integers the
cells stand for.

**Arithmetic wraps and never traps** (`StackLink.Machine.arithmetic_wraps_and_never_traps`):
`ADD`, `SUB` and `MUL` leave the integer sum, difference and product reduced modulo `2^32` and
read back as a signed cell; `DIV` and `MOD` fail, with a division by zero, exactly when `b` is
zero, and otherwise leave the quotient truncated toward zero (reduced modulo `2^32`) and the
remainder, which together give back `a` modulo `2^32`, the remainder below `b` in size and of
the sign of `a`; the comparisons leave all ones for true and zero for false, comparing as
signed integers. The one quotient that does not fit, `-2^31 / -1`, wraps to `-2^31` with no
error, and its remainder is zero (`StackLink.Machine.min_div_neg_one_wraps`).

The facts behind it:

* on a stack with `b` on top of `a`, a two-operand instruction replaces the pair by its
  result, or fails at the instruction and leaves the machine as it was
  (`StackLink.Machine.execute_binary`);
* each operation, read on the integers (`StackLink.binaryOp_add` … `StackLink.binaryOp_ge`),
  where the library gives the cells' signed readings of sums, products, truncated quotients
  and remainders and of the order.
-/

namespace StackLink

variable {a b : Int32}

/-! ### The operations on the integers the cells stand for -/

theorem binaryOp_add (a b : Int32) : binaryOp .add a b = .ok (Int32.ofInt (a.toInt + b.toInt)) := by
  simp [binaryOp]

theorem binaryOp_sub (a b : Int32) : binaryOp .sub a b = .ok (Int32.ofInt (a.toInt - b.toInt)) := by
  simp [binaryOp]

theorem binaryOp_mul (a b : Int32) : binaryOp .mul a b = .ok (Int32.ofInt (a.toInt * b.toInt)) := by
  simp [binaryOp]

/-- A non-zero divisor gives the quotient truncated toward zero, wrapped into 32 bits. -/
theorem binaryOp_div (hb : b ≠ 0) :
    binaryOp .div a b = .ok (Int32.ofInt (a.toInt.tdiv b.toInt)) := by
  simp [binaryOp, hb, ← Int32.toInt_inj]

/-- A non-zero divisor gives the remainder of the truncated division, which always fits. -/
theorem binaryOp_mod (hb : b ≠ 0) : ∃ r, binaryOp .mod a b = .ok r ∧ r.toInt = a.toInt.tmod b.toInt :=
  ⟨a % b, by simp [binaryOp, hb], Int32.toInt_mod a b⟩

/-- The cell of a truth value, as an integer. -/
theorem Int32.ofBool_eq (p : Bool) : Int32.ofBool p = if p then -1 else 0 := rfl

theorem binaryOp_eq (a b : Int32) :
    binaryOp .eq a b = .ok (if a.toInt = b.toInt then -1 else 0) := by
  simp [binaryOp, Int32.ofBool_eq, Int32.toInt_inj]

theorem binaryOp_ne (a b : Int32) :
    binaryOp .ne a b = .ok (if a.toInt = b.toInt then 0 else -1) := by
  by_cases h : a = b <;> simp [binaryOp, Int32.ofBool_eq, Int32.toInt_inj, h]

theorem binaryOp_lt (a b : Int32) :
    binaryOp .lt a b = .ok (if a.toInt < b.toInt then -1 else 0) := by
  simp [binaryOp, Int32.ofBool_eq, Int32.lt_iff_toInt_lt]

theorem binaryOp_le (a b : Int32) :
    binaryOp .le a b = .ok (if a.toInt ≤ b.toInt then -1 else 0) := by
  simp [binaryOp, Int32.ofBool_eq, Int32.le_iff_toInt_le]

theorem binaryOp_gt (a b : Int32) :
    binaryOp .gt a b = .ok (if b.toInt < a.toInt then -1 else 0) := by
  simp [binaryOp, Int32.ofBool_eq, Int32.lt_iff_toInt_lt]

theorem binaryOp_ge (a b : Int32) :
    binaryOp .ge a b = .ok (if b.toInt ≤ a.toInt then -1 else 0) := by
  simp [binaryOp, Int32.ofBool_eq, Int32.le_iff_toInt_le]

/-! ### Quotient and remainder -/

/-- The wrapped quotient and the remainder give back the dividend modulo `2^32`; the remainder
is smaller than the divisor and is zero or has the dividend's sign. -/
theorem tdiv_tmod_laws (a b : Int) :
    ((a.tdiv b).bmod (2 ^ 32) * b + a.tmod b ≡ a [ZMOD 2 ^ 32]) ∧
      (b ≠ 0 → (a.tmod b).natAbs < b.natAbs) ∧ (a.tmod b = 0 ∨ (a.tmod b).sign = a.sign) := by
  refine ⟨?_, fun hb => ?_, ?_⟩
  · -- the quotient differs from its wrapped form by a multiple of `2^32`
    have hq : (a.tdiv b).bmod (2 ^ 32) ≡ a.tdiv b [ZMOD 2 ^ 32] := by
      have h := Int.bmod_emod (x := a.tdiv b) (m := 2 ^ 32)
      push_cast at h
      exact h
    calc (a.tdiv b).bmod (2 ^ 32) * b + a.tmod b
        ≡ a.tdiv b * b + a.tmod b [ZMOD 2 ^ 32] := (hq.mul_right b).add_right _
      _ = a := by rw [Int.add_comm, Int.tmod_add_tdiv_mul]
  · rw [Int.natAbs_tmod]
    exact Nat.mod_lt _ (Int.natAbs_pos.mpr hb)
  · by_cases hd : b ∣ a
    · exact .inl (Int.tmod_eq_zero_of_dvd hd)
    · exact .inr (by rw [Int.sign_tmod, if_neg hd])

namespace Machine

variable {m : Machine} {c : Cursor} {i : Instruction} {rest : List Int32}

/-- On a stack with `b` on top of `a`, a two-operand instruction replaces the two cells by its
result, or fails at the instruction with the machine unchanged. -/
theorem execute_binary {op : Op} (hop : op.isBinary = true) (hdata : m.data = b :: a :: rest) :
    m.execute c i op = match binaryOp op a b with
      | .ok r => .next { m with data := r :: rest } c
      | .error e => .fail m (.exec ⟨c.word.name, i.offset, i.opcode, e⟩) := by
  cases op <;> simp only [Op.isBinary, Bool.false_eq_true] at hop <;> unfold execute <;> rw [hdata] <;> rfl

theorem execute_binary_ok {op : Op} {r : Int32} (hop : op.isBinary = true)
    (hdata : m.data = b :: a :: rest) (h : binaryOp op a b = .ok r) :
    m.execute c i op = .next { m with data := r :: rest } c := by
  rw [execute_binary hop hdata, h]

/-- **Arithmetic wraps and never traps.** Take a machine whose data stack holds `b` on top of `a`.
`ADD`, `SUB` and `MUL` replace the two by the integer sum, difference or product, reduced modulo
`2^32` and read as a signed cell. `DIV` and `MOD` fail with a division by zero exactly when `b`
is zero; otherwise `DIV` leaves `q`, the quotient truncated toward zero and reduced modulo
`2^32`, `MOD` leaves `r`, and `q * b + r` is `a` modulo `2^32`, `r` is smaller than `b` in
absolute value, and `r` is zero or has the sign of `a`. Each comparison leaves `-1` when it
holds of the signed integers and `0` when it does not. -/
theorem arithmetic_wraps_and_never_traps (hdata : m.data = b :: a :: rest) :
    m.execute c i .add = .next { m with data := Int32.ofInt (a.toInt + b.toInt) :: rest } c ∧
    m.execute c i .sub = .next { m with data := Int32.ofInt (a.toInt - b.toInt) :: rest } c ∧
    m.execute c i .mul = .next { m with data := Int32.ofInt (a.toInt * b.toInt) :: rest } c ∧
    (m.execute c i .div = .fail m (.exec ⟨c.word.name, i.offset, i.opcode, .divideByZero⟩) ↔
      b = 0) ∧
    (m.execute c i .mod = .fail m (.exec ⟨c.word.name, i.offset, i.opcode, .divideByZero⟩) ↔
      b = 0) ∧
    (b ≠ 0 → ∃ q r : Int32,
      m.execute c i .div = .next { m with data := q :: rest } c ∧
      m.execute c i .mod = .next { m with data := r :: rest } c ∧
      q.toInt = (a.toInt.tdiv b.toInt).bmod (2 ^ 32) ∧
      (q.toInt * b.toInt + r.toInt ≡ a.toInt [ZMOD 2 ^ 32]) ∧
      r.toInt.natAbs < b.toInt.natAbs ∧ (r.toInt = 0 ∨ r.toInt.sign = a.toInt.sign)) ∧
    m.execute c i .eq = .next { m with data := (if a.toInt = b.toInt then -1 else 0) :: rest } c ∧
    m.execute c i .ne = .next { m with data := (if a.toInt = b.toInt then 0 else -1) :: rest } c ∧
    m.execute c i .lt = .next { m with data := (if a.toInt < b.toInt then -1 else 0) :: rest } c ∧
    m.execute c i .le = .next { m with data := (if a.toInt ≤ b.toInt then -1 else 0) :: rest } c ∧
    m.execute c i .gt = .next { m with data := (if b.toInt < a.toInt then -1 else 0) :: rest } c ∧
    m.execute c i .ge =
      .next { m with data := (if b.toInt ≤ a.toInt then -1 else 0) :: rest } c := by
  -- a zero divisor fails both instructions; a non-zero one lets both go on
  have hzero : ∀ op, op = .div ∨ op = .mod →
      (m.execute c i op = .fail m (.exec ⟨c.word.name, i.offset, i.opcode, .divideByZero⟩) ↔
        b = 0) := by
    rintro op hop
    have hbin : op.isBinary = true := by rcases hop with rfl | rfl <;> rfl
    rw [execute_binary hbin hdata]
    by_cases hb : b = 0
    · subst hb
      rcases hop with rfl | rfl <;> simp [binaryOp]
    · rcases hop with rfl | rfl
      · simp [binaryOp_div hb, hb]
      · obtain ⟨r, hr, -⟩ := binaryOp_mod (a := a) hb
        simp [hr, hb]
  refine ⟨execute_binary_ok rfl hdata (binaryOp_add a b),
    execute_binary_ok rfl hdata (binaryOp_sub a b), execute_binary_ok rfl hdata (binaryOp_mul a b),
    hzero .div (.inl rfl), hzero .mod (.inr rfl), fun hb => ?_,
    execute_binary_ok rfl hdata (binaryOp_eq a b), execute_binary_ok rfl hdata (binaryOp_ne a b),
    execute_binary_ok rfl hdata (binaryOp_lt a b), execute_binary_ok rfl hdata (binaryOp_le a b),
    execute_binary_ok rfl hdata (binaryOp_gt a b), execute_binary_ok rfl hdata (binaryOp_ge a b)⟩
  obtain ⟨r, hr, hrval⟩ := binaryOp_mod (a := a) hb
  have hb' : b.toInt ≠ 0 := by simpa [← Int32.toInt_inj] using hb
  obtain ⟨hmod, hlt, hsign⟩ := tdiv_tmod_laws a.toInt b.toInt
  refine ⟨_, r, execute_binary_ok rfl hdata (binaryOp_div hb), execute_binary_ok rfl hdata hr,
    by simp, ?_, ?_, ?_⟩
  · simpa [hrval] using hmod
  · simpa [hrval] using hlt hb'
  · simpa [hrval] using hsign

/-- **The one overflowing quotient wraps**: `-2^31 / -1` leaves `-2^31` and `-2^31 mod -1` leaves
zero, neither with an error. -/
theorem min_div_neg_one_wraps :
    let m : Machine := { Machine.new ⟨16, 4, 4, 4, 0⟩ with data := [-1, Int32.minValue] }
    let c : Cursor := ⟨⟨-1, [], [Op.div.byte]⟩, 1, [], 1⟩
    let i : Instruction := ⟨0, Op.div.byte, [], false⟩
    m.data = -1 :: Int32.minValue :: [] ∧
      m.execute c i .div = .next { m with data := [Int32.minValue] } c ∧
      m.execute c i .mod = .next { m with data := [0] } c := by
  intro m c i
  have hdata : m.data = -1 :: Int32.minValue :: [] := rfl
  obtain ⟨-, -, -, -, -, hdivmod, -⟩ := arithmetic_wraps_and_never_traps (c := c) (i := i) hdata
  obtain ⟨q, r, hq, hr, hqv, -, hlt, -⟩ := hdivmod (by decide)
  -- the wrapped quotient is `-2^31` again, and a remainder below one in size is zero
  have hq' : q = Int32.minValue :=
    Int32.toInt_inj.mp (hqv.trans (by decide))
  have hr' : r = 0 := by
    have h1 : (Int32.toInt (-1)).natAbs = 1 := by decide
    rw [h1] at hlt
    exact Int32.toInt_inj.mp (Int.natAbs_eq_zero.mp (by omega))
  exact ⟨hdata, hq' ▸ hq, hr' ▸ hr⟩

end Machine

end StackLink
