import Mathlib
import StackLink.Proofs.Relocation

/-!
# Little-endian fields read back

The link's reply layouts are made of little-endian fields of fixed width: count bytes,
16-bit indices and lengths, 32-bit cells and memory words. This file says once how a field
written by `StackLink.Bytes.le16` or `StackLink.Bytes.le32` is found again by
`StackLink.Bytes.readLE`, also in the middle of a longer string, so that the layouts can be
read back field by field.

* A field inside a prefix is read from the prefix, and one past it from what follows
  (`StackLink.Bytes.readLE_append_left`, `StackLink.Bytes.readLE_append_right`).
* **A run of fields reads back**: writing each element of a list as `w` bytes and reading
  the run at offsets `0, w, 2w, …` gives back each element's value
  (`StackLink.Bytes.map_range_readLE`).
* **A string of fields writes back**: cutting `w * n` bytes into `n` fields and writing each
  value back gives the string, for any writer that restores `w` bytes from their value
  (`StackLink.Bytes.flatMap_range_readLE`).

A field keeps only the low bits of what is written into it (`StackLink.Bytes.le32_mod`), so a
value is read back whole only when it fits the width.
-/

namespace StackLink.Bytes

/-- Sixteen bits written out and read back: the value's low sixteen bits. -/
theorem leValue_le16_mod (x : Nat) : leValue (le16 x) = x % 65536 := by
  simp only [le16, leValue, UInt8.toNat_ofNat', Nat.mul_zero, Nat.add_zero]
  omega

/-- Thirty-two bits written out and read back. -/
theorem leValue_le32 {x : Nat} (h : x < 2 ^ 32) : leValue (le32 x) = x := by
  simp only [le32, leValue, UInt8.toNat_ofNat', Nat.mul_zero, Nat.add_zero]
  omega

/-- A 32-bit field writes only the low 32 bits of a value. -/
theorem le32_mod (x : Nat) : le32 (x % 2 ^ 32) = le32 x := by
  simp only [le32, List.cons.injEq, and_true]
  refine ⟨?_, ?_, ?_, ?_⟩ <;> apply UInt8.toNat_inj.mp <;> simp only [UInt8.toNat_ofNat'] <;>
    omega

/-- Four bytes read as a 32-bit value are written out again unchanged. -/
theorem le32_leValue {bs : List UInt8} (h : bs.length = 4) : le32 (leValue bs) = bs := by
  match bs, h with
  | [b₀, b₁, b₂, b₃], _ =>
    have h₀ := b₀.toNat_lt
    have h₁ := b₁.toNat_lt
    have h₂ := b₂.toNat_lt
    have h₃ := b₃.toNat_lt
    simp only [le32, leValue, List.cons.injEq, and_true]
    refine ⟨?_, ?_, ?_, ?_⟩ <;> apply UInt8.toNat_inj.mp <;> simp only [UInt8.toNat_ofNat'] <;>
      omega

/-- Two bytes read as a 16-bit value are written out again unchanged. -/
theorem le16_leValue_of_length_two {c : List UInt8} (h : c.length = 2) : le16 (leValue c) = c := by
  match c, h with
  | [lo, hi], _ =>
    rw [← Nat.mod_eq_of_lt (leValue_lt_of_length_two (show [lo, hi].length = 2 from rfl))]
    exact le16_leValue lo hi

/-! ### Fields in a longer string -/

/-- A field that runs past the end of the string is not there. -/
theorem readLE_of_short {w o : Nat} {bs : List UInt8} (h : bs.length < o + w) :
    readLE w bs o = none := by
  rw [readLE, if_neg (by omega)]

/-- A field as wide as the whole string is the whole string. -/
theorem readLE_self (bs : List UInt8) : readLE bs.length bs 0 = some (leValue bs) := by
  simp [readLE]

/-- A field past a prefix is read from what follows the prefix. -/
theorem readLE_append_right (w : Nat) (xs ys : List UInt8) (o : Nat) :
    readLE w (xs ++ ys) (xs.length + o) = readLE w ys o := by
  have hdrop : (xs ++ ys).drop (xs.length + o) = ys.drop o := List.drop_length_add_append o
  simp only [readLE, List.length_append, hdrop]
  by_cases h : o + w ≤ ys.length
  · rw [if_pos (by omega), if_pos h]
  · rw [if_neg (by omega), if_neg h]

/-- A field inside a prefix is read from the prefix alone. -/
theorem readLE_append_left {w o : Nat} {xs : List UInt8} (h : o + w ≤ xs.length)
    (ys : List UInt8) : readLE w (xs ++ ys) o = readLE w xs o := by
  have hdrop : (xs ++ ys).drop o = xs.drop o ++ ys := List.drop_append_of_le_length (by omega)
  have htake : (xs.drop o ++ ys).take w = (xs.drop o).take w :=
    List.take_append_of_le_length (by simp; omega)
  simp only [readLE, List.length_append, hdrop, htake]
  rw [if_pos (by omega), if_pos h]

/-- A 16-bit value written as a string of its own is read back. -/
theorem readLE16_le16 {x : Nat} (h : x < 65536) : readLE16 (le16 x) 0 = some x := by
  rw [readLE16, ← length_le16 x, readLE_self, leValue_le16_mod, Nat.mod_eq_of_lt h]

/-- A 16-bit value written at the front of a string is read back, whatever follows it. -/
theorem readLE16_le16_append {x : Nat} (h : x < 65536) (ys : List UInt8) :
    readLE16 (le16 x ++ ys) 0 = some x := by
  rw [readLE16, readLE_append_left (by simp), ← readLE16, readLE16_le16 h]

/-- A 32-bit value written at the front of a string is read back, whatever follows it. -/
theorem readLE32_le32_append {x : Nat} (h : x < 2 ^ 32) (ys : List UInt8) :
    readLE32 (le32 x ++ ys) 0 = some x := by
  rw [readLE32, readLE_append_left (by simp), ← length_le32 x, readLE_self, leValue_le32 h]

/-! ### Runs of fields -/

section Runs

variable {α : Type} {w : Nat} (enc : α → List UInt8)

/-- A run of fields of width `w` is `w` bytes per element. -/
theorem length_flatMap_of_width (henc : ∀ a, (enc a).length = w) (xs : List α) :
    (xs.flatMap enc).length = w * xs.length := by
  induction xs with
  | nil => simp
  | cons x xs ih =>
    rw [List.flatMap_cons, List.length_append, ih, henc, List.length_cons]
    ring

/-- The `i`-th field of a run of fields of width `w` is read at offset `w * i`. -/
theorem readLE_flatMap (henc : ∀ a, (enc a).length = w) (xs : List α) {i : Nat}
    (hi : i < xs.length) : readLE w (xs.flatMap enc) (w * i) = some (leValue (enc xs[i])) := by
  induction xs generalizing i with
  | nil => simp at hi
  | cons x xs ih =>
    rw [List.flatMap_cons]
    cases i with
    | zero =>
      -- the first field is the whole of the first element's bytes
      rw [Nat.mul_zero, readLE_append_left (by rw [henc]; omega), ← henc x, readLE_self]
      rfl
    | succ i =>
      rw [show w * (i + 1) = (enc x).length + w * i by rw [henc]; ring, readLE_append_right]
      exact ih (by simpa using hi)

/-- **A run of fields reads back**: the first `xs.length` fields of width `w` of the run of
`xs`, followed by anything, are the values of the bytes each element was written as. -/
theorem map_range_readLE (henc : ∀ a, (enc a).length = w) (xs : List α) (tail : List UInt8) :
    (List.range xs.length).map (fun i => (readLE w (xs.flatMap enc ++ tail) (w * i)).getD 0) =
      xs.map fun x => leValue (enc x) := by
  apply List.ext_getElem (by simp)
  intro i hi _
  have hi' : i < xs.length := by simpa using hi
  have hin : w * i + w ≤ (xs.flatMap enc).length := by
    rw [length_flatMap_of_width enc henc]
    have := Nat.mul_le_mul_left w (Nat.succ_le_of_lt hi')
    rw [Nat.mul_succ] at this
    exact this
  simp only [List.getElem_map, List.getElem_range]
  rw [readLE_append_left hin, readLE_flatMap enc henc xs hi']
  rfl

/-- A run of fields read back through a decoder `dec`: each element's bytes, as a value, given
to `dec`. -/
theorem map_range_readLE_map {β : Type} (dec : Nat → β) (henc : ∀ a, (enc a).length = w)
    (xs : List α) (tail : List UInt8) :
    (List.range xs.length).map (fun i => dec ((readLE w (xs.flatMap enc ++ tail) (w * i)).getD 0)) =
      xs.map fun x => dec (leValue (enc x)) := by
  simpa only [List.map_map, Function.comp_def] using
    congrArg (List.map dec) (map_range_readLE enc henc xs tail)

end Runs

/-- **A string of fields is written back unchanged**: cut into `n` fields of width `w`, each
read and written back by a writer that restores any `w` bytes from their value, a string of
`w * n` bytes is what it was. -/
theorem flatMap_range_readLE {w : Nat} (enc : Nat → List UInt8)
    (henc : ∀ c : List UInt8, c.length = w → enc (leValue c) = c) (n : Nat) (bs : List UInt8)
    (hbs : bs.length = w * n) :
    (List.range n).flatMap (fun i => enc ((readLE w bs (w * i)).getD 0)) = bs := by
  induction n generalizing bs with
  | zero => simp_all
  | succ n ih =>
    -- the first field, then the rest of the string from its second field on
    have hfirst : (bs.take w).length = w := List.length_take_of_le (by rw [hbs]; nlinarith)
    have hrest : (bs.drop w).length = w * n := by rw [List.length_drop, hbs]; ring_nf; omega
    have hhead : readLE w bs 0 = some (leValue (bs.take w)) := by
      simp only [readLE, Nat.zero_add, List.drop_zero]
      rw [if_pos (by rw [hbs]; nlinarith)]
    have htail : ∀ i, readLE w bs (w * (i + 1)) = readLE w (bs.drop w) (w * i) := by
      intro i
      calc readLE w bs (w * (i + 1))
          = readLE w (bs.take w ++ bs.drop w) ((bs.take w).length + w * i) := by
            rw [List.take_append_drop, hfirst, Nat.mul_succ, Nat.add_comm]
        _ = readLE w (bs.drop w) (w * i) := readLE_append_right w _ _ _
    rw [List.range_succ_eq_map, List.flatMap_cons, List.flatMap_map, Nat.mul_zero, hhead,
      Option.getD_some, henc _ hfirst]
    simp only [htail]
    rw [ih _ hrest]
    exact List.take_append_drop w bs

end StackLink.Bytes
