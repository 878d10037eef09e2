import Mathlib
import StackLink.Format.Cbor

/-!
# Reading back canonical CBOR

Modules travel as CBOR, written by `StackLink.Cbor.writeMap` and its siblings and read by
`StackLink.Cbor.read`. This file shows that the reader gives back the items the writer wrote, and
where it refuses them.

The reader walks an array of bytes with an offset, fuel for the nesting and a depth. The
statements are therefore about bytes standing anywhere in an input (`StackLink.Cbor.At`):
`StackLink.Cbor.Reads bs x h` says that wherever `bs` stands, with fuel and room for `h` more
levels of nesting, reading gives the item `x` and stops right after `bs`. That is what makes the
lemmas compose: the items of an array stand one after another, each read where the one before
it ended.

* a head reads back as its major type and argument (`StackLink.Cbor.readHead_head`), its
  argument written big-endian in the fewest bytes (`StackLink.Cbor.foldl_beBytes`);
* integers, strings and null read back (`StackLink.Cbor.reads_uint`,
  `StackLink.Cbor.reads_string`, `StackLink.Cbor.reads_null`);
* **arrays and maps read back** when they have at most 131072 items or pairs
  (`StackLink.Cbor.reads_array`, `StackLink.Cbor.reads_map`), through one lemma on runs of
  items (`StackLink.Cbor.readSeq_prefix`);
* **an array of more items is refused** at its head (`StackLink.Cbor.fails_array_tooMany`), and
  a map fails with the first value that fails (`StackLink.Cbor.fails_map`);
* a whole input is one item and nothing more (`StackLink.Cbor.read_eq_ok`,
  `StackLink.Cbor.read_eq_error`).

Text strings are read as bytes: whether they are UTF-8 is no concern of the reader.
-/

namespace StackLink.Cbor

/-! ### Bytes standing in an input -/

/-- The bytes `bs` stand in the input `data` from offset `off` on. -/
def At (data : Array UInt8) (off : Nat) (bs : List UInt8) : Prop :=
  bs <+: data.toList.drop off

variable {data : Array UInt8} {off : Nat}

theorem at_append {b₁ b₂ : List UInt8} :
    At data off (b₁ ++ b₂) ↔ At data off b₁ ∧ At data (off + b₁.length) b₂ := by
  unfold At
  rw [← List.drop_drop]
  constructor
  · rintro ⟨t, ht⟩
    refine ⟨⟨b₂ ++ t, by rw [← ht, List.append_assoc]⟩, ⟨t, ?_⟩⟩
    rw [← ht, List.append_assoc, List.drop_left]
  · rintro ⟨⟨t₁, h₁⟩, ⟨t₂, h₂⟩⟩
    refine ⟨t₂, ?_⟩
    rw [← h₁, List.drop_left] at h₂
    rw [← h₁, ← h₂, List.append_assoc]

theorem at_cons {b : UInt8} {bs : List UInt8} :
    At data off (b :: bs) ↔ data[off]? = some b ∧ At data (off + 1) bs := by
  rw [← List.singleton_append, at_append]
  unfold At
  simp only [List.length_singleton, and_congr_left_iff]
  intro _
  constructor
  · rintro ⟨t, ht⟩
    rw [← Array.getElem?_toList, ← Nat.add_zero off, ← List.getElem?_drop, ← ht]
    rfl
  · intro h
    rw [← Array.getElem?_toList, ← Nat.add_zero off, ← List.getElem?_drop] at h
    obtain ⟨t, ht⟩ : ∃ t, data.toList.drop off = b :: t := by
      cases hd : data.toList.drop off with
      | nil => simp [hd] at h
      | cons c t => simp_all
    exact ⟨t, ht.symm⟩

theorem At.length_le {bs : List UInt8} (h : At data off bs) : bs.length ≤ data.size - off := by
  have := List.IsPrefix.length_le h
  simpa using this

theorem At.extract {bs : List UInt8} (h : At data off bs) :
    (data.extract off (off + bs.length)).toList = bs := by
  rw [Array.toList_extract, List.extract_eq_take_drop, Nat.add_sub_cancel_left]
  exact (List.prefix_iff_eq_take.mp h).symm

/-- The big-endian reading of bytes: the first is the most significant. -/
theorem beAt_eq {bs : List UInt8} (h : At data off bs) :
    beAt data off bs.length = bs.foldl (fun acc b => 256 * acc + b.toNat) 0 := by
  induction bs using List.reverseRecOn with
  | nil => rfl
  | append_singleton bs b ih =>
    obtain ⟨hbs, hb⟩ := at_append.mp h
    have hb' : data[off + bs.length]? = some b := (at_cons.mp hb).1
    rw [List.length_append, List.length_singleton, beAt, List.range_succ, List.foldl_append,
      ← beAt, ih hbs, List.foldl_append]
    simp [Array.getD_eq_getD_getElem?, hb']

/-- The `w` bytes of `n`, most significant first, read back as `n` modulo `256 ^ w`. -/
theorem foldl_beBytes (w n : Nat) :
    ((List.range w).reverse.map fun k => UInt8.ofNat (n / Nat.pow 256 k)).foldl
      (fun acc b => 256 * acc + b.toNat) 0 = n % 256 ^ w := by
  induction w generalizing n with
  | zero => simp [Nat.mod_one]
  | succ w ih =>
    have hshift : ((List.range (w + 1)).reverse.map fun k => UInt8.ofNat (n / Nat.pow 256 k)) =
        ((List.range w).reverse.map fun k => UInt8.ofNat (n / 256 / Nat.pow 256 k)) ++
          [UInt8.ofNat n] := by
      rw [List.range_succ_eq_map, List.reverse_cons, List.map_append, ← List.map_reverse,
        List.map_map]
      simp [Function.comp_def, Nat.div_div_eq_div_mul, Nat.pow_succ, Nat.mul_comm]
    rw [hshift, List.foldl_append, ih]
    have hlow : (UInt8.ofNat n).toNat = n % 256 := by simp
    simp only [List.foldl_cons, List.foldl_nil, hlow]
    rw [Nat.pow_succ, Nat.mul_comm (256 ^ w) 256, Nat.mod_mul]
    omega

/-- The argument of a head, in `w` bytes after the first, reads back. -/
theorem beAt_beBytes {w n : Nat} (hn : n < 256 ^ w)
    (h : At data off ((List.range w).reverse.map fun k => UInt8.ofNat (n / Nat.pow 256 k))) :
    beAt data off w = n := by
  have hlen := beAt_eq h
  simp only [List.length_map, List.length_reverse, List.length_range] at hlen
  rw [hlen, foldl_beBytes, Nat.mod_eq_of_lt hn]

/-- The first byte of a head carries its major type and additional information. -/
theorem toNat_initial {major ai : Nat} (hmajor : major < 8) (hai : ai < 32) :
    (UInt8.ofNat (32 * major + ai)).toNat / 32 = major ∧
      (UInt8.ofNat (32 * major + ai)).toNat % 32 = ai := by
  have h : (UInt8.ofNat (32 * major + ai)).toNat = 32 * major + ai := by
    simp
    omega
  omega

/-- A head whose argument follows its first byte in `w` bytes, for `w` one of 1, 2, 4, 8. -/
theorem readHead_wide {major ai w n : Nat} (hmajor : major < 8) (hai : 24 ≤ ai ∧ ai ≤ 27)
    (hw : w = 2 ^ (ai - 24)) (hn : n < 256 ^ w) (hsimple : major = 7 → 32 ≤ n)
    (h : At data off (UInt8.ofNat (32 * major + ai) ::
      (List.range w).reverse.map fun k => UInt8.ofNat (n / Nat.pow 256 k))) :
    readHead data off = .ok (major, ai, n, off + (UInt8.ofNat (32 * major + ai) ::
      (List.range w).reverse.map fun k => UInt8.ofNat (n / Nat.pow 256 k)).length) := by
  obtain ⟨hb, hbe⟩ := at_cons.mp h
  have hv := beAt_beBytes hn hbe
  have hsize := hbe.length_le
  simp only [List.length_map, List.length_reverse, List.length_range] at hsize
  obtain ⟨hdiv, hmod⟩ := toNat_initial hmajor (show ai < 32 by omega)
  generalize UInt8.ofNat (32 * major + ai) = B at hb hdiv hmod
  simp only [List.length_cons, List.length_map, List.length_reverse, List.length_range]
  unfold readHead
  rw [hb]
  simp only [hdiv, hmod]
  rcases (by omega : ai = 24 ∨ ai = 25 ∨ ai = 26 ∨ ai = 27) with rfl | rfl | rfl | rfl
  · obtain rfl : w = 1 := hw
    rw [if_neg (by omega), if_pos rfl, if_neg (by omega), if_neg (by rw [hv]; omega), hv]
  · obtain rfl : w = 2 := hw
    rw [if_neg (by omega), if_neg (by omega), if_pos rfl, if_neg (by omega), hv]
  · obtain rfl : w = 4 := hw
    rw [if_neg (by omega), if_neg (by omega), if_neg (by omega), if_pos rfl, if_neg (by omega), hv]
  · obtain rfl : w = 8 := hw
    rw [if_neg (by omega), if_neg (by omega), if_neg (by omega), if_neg (by omega), if_pos rfl,
      if_neg (by omega), hv]

/-- **A head reads back as its major type and argument**, whatever follows it. -/
theorem readHead_head {major n : Nat} (h : At data off (head major n)) (hmajor : major < 8)
    (hn : n < 2 ^ 64) (hsimple : major = 7 → n < 24) :
    ∃ ai, ai ≠ 31 ∧ (n < 24 → ai = n) ∧
      readHead data off = .ok (major, ai, n, off + (head major n).length) := by
  unfold head at h ⊢
  dsimp only at h ⊢
  split_ifs at h ⊢ with h24 h256 h65536 h32
  · obtain ⟨hb, -⟩ := at_cons.mp h
    obtain ⟨hdiv, hmod⟩ := toNat_initial hmajor (show n < 32 by omega)
    refine ⟨n, by omega, fun _ => rfl, ?_⟩
    unfold readHead
    rw [hb]
    simp only [hdiv, hmod]
    rw [if_pos h24]
    rfl
  · exact ⟨24, by omega, by omega,
      readHead_wide hmajor (by omega) rfl (by simpa using h256) (by omega) h⟩
  · exact ⟨25, by omega, by omega,
      readHead_wide hmajor (by omega) rfl (by simpa using h65536) (by omega) h⟩
  · exact ⟨26, by omega, by omega,
      readHead_wide hmajor (by omega) rfl (by simpa using h32) (by omega) h⟩
  · exact ⟨27, by omega, by omega,
      readHead_wide hmajor (by omega) rfl (by simpa using hn) (by omega) h⟩

/-! ### Items read back -/

/-- The bytes `bs` are read as the item `x`, nested `h` levels deep at most: wherever they
stand, with fuel above `h` and room for `h` more levels of nesting, reading gives `x` and stops
right after them. -/
def Reads (bs : List UInt8) (x : Item) (h : Nat) : Prop :=
  bs ≠ [] ∧ ∀ (data : Array UInt8) (off fuel depth : Nat), At data off bs → h < fuel →
    depth + h ≤ maxNesting → readItem data fuel depth off = .ok (x, off + bs.length)

variable {bs : List UInt8} {x : Item} {h : Nat}

theorem Reads.mono {h' : Nat} (hr : Reads bs x h) (hle : h ≤ h') : Reads bs x h' :=
  ⟨hr.1, fun data off fuel depth hat hf hd => hr.2 data off fuel depth hat (by omega) (by omega)⟩

theorem head_ne_nil (major n : Nat) : head major n ≠ [] := by
  unfold head
  split_ifs <;> simp

/-- An unsigned integer is read back. -/
theorem reads_uint {n : Nat} (hn : n < 2 ^ 64) : Reads (writeUInt n) (.uint n) 0 := by
  refine ⟨head_ne_nil 0 n, fun data off fuel depth hat hf _ => ?_⟩
  obtain ⟨f, rfl⟩ : ∃ f, fuel = f + 1 := ⟨fuel - 1, by omega⟩
  obtain ⟨ai, -, -, hhead⟩ := readHead_head hat (by omega) hn (by omega)
  rw [readItem, hhead]
  rfl

/-- The null item is read back as the simple value 22. -/
theorem reads_null : Reads null (.prim 22 22) 0 := by
  refine ⟨by simp [null], fun data off fuel depth hat hf _ => ?_⟩
  obtain ⟨f, rfl⟩ : ∃ f, fuel = f + 1 := ⟨fuel - 1, by omega⟩
  have hnull : null = head 7 22 := rfl
  rw [hnull] at hat ⊢
  obtain ⟨ai, -, hai, hhead⟩ := readHead_head hat (by omega) (by omega) (by omega)
  rw [readItem, hhead, hai (by omega)]
  rfl

/-- A definite-length string is read back as its bytes. -/
theorem reads_string {t : Nat} (ht : t = 2 ∨ t = 3) {b : List UInt8} (hb : b.length < 2 ^ 63) :
    Reads (head t b.length ++ b) (if t = 2 then .bytes b else .text b) 0 := by
  refine ⟨by simp [head_ne_nil], fun data off fuel depth hat hf _ => ?_⟩
  obtain ⟨f, rfl⟩ : ∃ f, fuel = f + 1 := ⟨fuel - 1, by omega⟩
  obtain ⟨hhd, hbody⟩ := at_append.mp hat
  obtain ⟨ai, hai, -, hhead⟩ := readHead_head hhd (by omega) (by omega) (by omega)
  have hroom := hbody.length_le
  have hext := hbody.extract
  rw [readItem, hhead]
  rcases ht with rfl | rfl
  all_goals
    simp only [bind, Except.bind, pure, Except.pure]
    rw [if_neg hai, if_neg (by rw [Nat.pow_eq]; omega), if_neg (by omega), hext]
    simp [Nat.add_assoc]

theorem reads_bytes {b : List UInt8} (hb : b.length < 2 ^ 63) :
    Reads (writeBytes b) (.bytes b) 0 := by
  exact reads_string (.inl rfl) hb

theorem reads_text {b : List UInt8} (hb : b.length < 2 ^ 63) : Reads (writeText b) (.text b) 0 := by
  exact reads_string (.inr rfl) hb

/-! ### Sequences of items -/

/-- Reading a run of items of known count: past items that each read back, reading goes on right
after them, with them gathered. -/
theorem readSeq_prefix {t c : Nat} {one : Nat → Except ReadError (Item × Nat)}
    {bss : List (List UInt8)} {xs : List Item}
    (hxs : List.Forall₂ (fun bs x => ∀ off, At data off bs → one off = .ok (x, off + bs.length))
      bss xs)
    (fuel i off : Nat) (acc : List Item) (hat : At data off bss.flatten) (hc : i + xs.length ≤ c) :
    readSeq data t (some c) one (fuel + xs.length) i off acc =
      readSeq data t (some c) one fuel (i + xs.length) (off + bss.flatten.length)
        (xs.reverse ++ acc) := by
  induction hxs generalizing i off acc with
  | nil => simp
  | @cons bs x bss xs hx hrest ih =>
    obtain ⟨hbs, hbss⟩ := at_append.mp (by simpa using hat)
    have hic : i ≠ c := by simp at hc; omega
    rw [show fuel + (x :: xs).length = fuel + xs.length + 1 by simp; omega, readSeq]
    simp only [hic, if_false, bind, Except.bind, hx off hbs]
    rw [ih (i + 1) (off + bs.length) (x :: acc) hbss (by simp at hc; omega)]
    simp [Nat.add_assoc, Nat.add_comm 1]

@[simp] theorem readSeq_done {t c : Nat} {one : Nat → Except ReadError (Item × Nat)} {k off : Nat}
    {acc : List Item} : readSeq data t (some c) one (k + 1) c off acc = .ok (acc.reverse, off) := by
  simp [readSeq]

/-- Items that read back each take a byte at least. -/
theorem Reads.length_le_flatten {bss : List (List UInt8)} {xs : List Item}
    (hxs : List.Forall₂ (fun bs x => Reads bs x h) bss xs) : xs.length ≤ bss.flatten.length := by
  induction hxs with
  | nil => simp
  | @cons bs x bss xs hx _ ih =>
    have := List.length_pos_of_ne_nil hx.1
    simp only [List.length_cons, List.flatten_cons, List.length_append]
    omega

/-- Items that read back, read one level down with the fuel and room they need. -/
theorem Reads.forall₂_readItem {bss : List (List UInt8)} {xs : List Item}
    (hxs : List.Forall₂ (fun bs x => Reads bs x h) bss xs) (f depth : Nat) (hf : h < f)
    (hd : depth + h ≤ maxNesting) :
    List.Forall₂ (fun bs x => ∀ off, At data off bs →
      readItem data f depth off = .ok (x, off + bs.length)) bss xs :=
  hxs.imp fun _ _ hr off hat => hr.2 data off f depth hat hf hd

/-- A definite-length array or map, once its head is read: its items are read as a run of as
many as the head says (twice as many for a map, keys and values in turn), one level down. -/
theorem readItem_definite {t v ai off' f depth : Nat} (ht : t = 4 ∨ t = 5)
    (hv : v ≤ maxElements) (hai : ai ≠ 31) (hhead : readHead data off = .ok (t, ai, v, off'))
    (hd : depth + 1 ≤ maxNesting) :
    readItem data (f + 1) depth off =
      (readSeq data t (some (if t = 4 then v else 2 * v)) (readItem data f (depth + 1))
        (data.size + 2) 0 off' []).map
        fun r => (if t = 4 then .array r.1 else .map (pairUp r.1), r.2) := by
  have hdeep : ¬ depth + 1 > maxNesting := by omega
  have hlong : ¬ v ≥ Nat.pow 2 63 := by
    rw [Nat.pow_eq]
    simp only [maxElements] at hv
    omega
  have hmany : ¬ v > maxElements := by omega
  rw [readItem, hhead]
  rcases ht with rfl | rfl
  all_goals
    simp only [bind, Except.bind, pure, Except.pure]
    simp [hdeep, hlong, hmany, hai, Except.map]

/-- A definite-length array or map: its head, then items that read back, as many as the head
says (twice as many for a map, keys and values in turn). -/
theorem readItem_container {t v : Nat} (ht : t = 4 ∨ t = 5) (hv : v ≤ maxElements)
    {bss : List (List UInt8)} {xs : List Item}
    (hxs : List.Forall₂ (fun bs x => Reads bs x h) bss xs)
    (hcount : xs.length = if t = 4 then v else 2 * v) {data : Array UInt8} {off fuel depth : Nat}
    (hat : At data off (head t v ++ bss.flatten)) (hf : h + 1 < fuel)
    (hd : depth + (h + 1) ≤ maxNesting) :
    readItem data fuel depth off = .ok (if t = 4 then .array xs else .map (pairUp xs),
      off + (head t v ++ bss.flatten).length) := by
  obtain ⟨f, rfl⟩ : ∃ f, fuel = f + 1 := ⟨fuel - 1, by omega⟩
  obtain ⟨hhd, hbody⟩ := at_append.mp hat
  obtain ⟨ai, hai, -, hhead⟩ :=
    readHead_head hhd (by omega) (by simp only [maxElements] at hv; omega) (by omega)
  -- the items fill the bytes after the head, so the run has fuel enough for all of them
  have hlen := Reads.length_le_flatten hxs
  have hroom := hbody.length_le
  have hseq := readSeq_prefix (t := t) (c := xs.length)
    (Reads.forall₂_readItem hxs f (depth + 1) (by omega) (by omega))
    (data.size + 2 - xs.length) 0 (off + (head t v).length) [] hbody (by omega)
  rw [show data.size + 2 - xs.length + xs.length = data.size + 2 by omega,
    show data.size + 2 - xs.length = (data.size + 1 - xs.length) + 1 by omega] at hseq
  rw [Nat.zero_add, readSeq_done, List.append_nil, List.reverse_reverse] at hseq
  rw [readItem_definite ht hv hai hhead (by omega), ← hcount, hseq]
  simp [Except.map, Nat.add_assoc]

theorem pairUp_cons_cons (a b : Item) (xs : List Item) :
    pairUp (a :: b :: xs) = (a, b) :: pairUp xs := by
  unfold pairUp
  rw [show (a :: b :: xs).length / 2 = xs.length / 2 + 1 by simp; omega, List.range_succ_eq_map]
  simp [Function.comp_def, Nat.mul_add]

/-- Keys and values laid out in turn pair up again. -/
theorem pairUp_flatMap (ps : List (Item × Item)) : pairUp (ps.flatMap fun p => [p.1, p.2]) = ps := by
  induction ps with
  | nil => simp [pairUp]
  | cons p ps ih => simp [pairUp_cons_cons, ih]

/-- **An array is read back**, its items in order. -/
theorem reads_array {bss : List (List UInt8)} {xs : List Item}
    (hxs : List.Forall₂ (fun bs x => Reads bs x h) bss xs) (hlen : xs.length ≤ maxElements) :
    Reads (writeArray bss) (.array xs) (h + 1) := by
  refine ⟨by simp [writeArray, head_ne_nil], fun data off fuel depth hat hf hd => ?_⟩
  have hcount : bss.length = xs.length := hxs.length_eq
  have := readItem_container (t := 4) (.inl rfl) (hcount ▸ hlen) hxs (by simp [hcount]) hat hf hd
  simpa [writeArray] using this

/-- Pairs of byte strings that read back as pairs of items, key and value. -/
def PairsRead (h : Nat) (kvs : List (List UInt8 × List UInt8)) (ps : List (Item × Item)) : Prop :=
  List.Forall₂ (fun kv p => Reads kv.1 p.1 h ∧ Reads kv.2 p.2 h) kvs ps

theorem PairsRead.flatMap {kvs : List (List UInt8 × List UInt8)} {ps : List (Item × Item)}
    (hps : PairsRead h kvs ps) :
    List.Forall₂ (fun bs x => Reads bs x h) (kvs.flatMap fun kv => [kv.1, kv.2])
      (ps.flatMap fun p => [p.1, p.2]) := by
  induction hps with
  | nil => simp
  | cons hkv _ ih => exact .cons hkv.1 (.cons hkv.2 ih)

theorem flatten_flatMap_pair (kvs : List (List UInt8 × List UInt8)) :
    (kvs.flatMap fun kv => [kv.1, kv.2]).flatten = kvs.flatMap fun (k, v) => k ++ v := by
  induction kvs with
  | nil => simp
  | cons kv kvs ih => simp [ih]

/-- **A map is read back**, its keys and values paired in order. -/
theorem reads_map {kvs : List (List UInt8 × List UInt8)} {ps : List (Item × Item)}
    (hps : PairsRead h kvs ps) (hlen : ps.length ≤ maxElements) :
    Reads (writeMap kvs) (.map ps) (h + 1) := by
  refine ⟨by simp [writeMap, head_ne_nil], fun data off fuel depth hat hf hd => ?_⟩
  have hcount : kvs.length = ps.length := List.Forall₂.length_eq hps
  have hflat := flatten_flatMap_pair kvs
  have := readItem_container (t := 5) (.inr rfl) (hcount ▸ hlen) hps.flatMap
    (by simp [hcount, Nat.mul_comm]) (by rwa [hflat]) hf hd
  rw [hflat, pairUp_flatMap] at this
  simpa [writeMap] using this

/-- **A whole input that holds one item and nothing more is read as that item.** -/
theorem read_eq_ok (hr : Reads bs x h) (hh : h ≤ maxNesting) : read bs = .ok x := by
  have hat : At bs.toArray 0 bs := by simp [At]
  have hitem := hr.2 bs.toArray 0 (maxNesting + 2) 0 hat (by omega) (by omega)
  have hne : bs.toArray.size ≠ 0 := by simpa using hr.1
  simp only [read, hne, if_false, hitem, Nat.zero_add]
  simp [bind, Except.bind, pure, Except.pure]

/-! ### Items that fail to read -/

/-- The bytes `bs` fail to read, with the error `e`, wherever they stand, with fuel above `h` and
room for `h` more levels of nesting. -/
def FailsWith (bs : List UInt8) (e : ReadError) (h : Nat) : Prop :=
  ∀ (data : Array UInt8) (off fuel depth : Nat), At data off bs → h < fuel →
    depth + h ≤ maxNesting → readItem data fuel depth off = .error e

theorem FailsWith.mono {e : ReadError} {h' : Nat} (hb : FailsWith bs e h) (hle : h ≤ h') :
    FailsWith bs e h' :=
  fun data off fuel depth hat hf hd => hb data off fuel depth hat (by omega) (by omega)

/-- **An array of more than 131072 items is refused** at its head, before any item is read. -/
theorem fails_array_tooMany {bss : List (List UInt8)} (hmany : maxElements < bss.length)
    (hlong : bss.length < 2 ^ 63) : FailsWith (writeArray bss) .tooManyElements 1 := by
  intro data off fuel depth hat hf hd
  obtain ⟨f, rfl⟩ : ∃ f, fuel = f + 1 := ⟨fuel - 1, by omega⟩
  obtain ⟨hhd, -⟩ := at_append.mp hat
  obtain ⟨ai, hai, -, hhead⟩ := readHead_head hhd (by omega) (by omega) (by omega)
  have hdeep : ¬ depth + 1 > maxNesting := by omega
  have hlong' : ¬ bss.length ≥ Nat.pow 2 63 := by
    rw [Nat.pow_eq]
    omega
  rw [readItem, hhead]
  simp only [bind, Except.bind, pure, Except.pure]
  simp [hdeep, hlong', hai, hmany, throw, throwThe, MonadExceptOf.throw]

theorem readSeq_error {t c i k off : Nat} {one : Nat → Except ReadError (Item × Nat)}
    {acc : List Item} {e : ReadError} (hi : i ≠ c) (hone : one off = .error e) :
    readSeq data t (some c) one (k + 1) i off acc = .error e := by
  simp [readSeq, hi, hone, bind, Except.bind]

/-- An array or a map whose items read back up to one that fails fails with that item's error. -/
theorem readItem_container_error {t v : Nat} (ht : t = 4 ∨ t = 5) (hv : v ≤ maxElements)
    {bss : List (List UInt8)} {xs : List Item} {bad : List UInt8} {e : ReadError}
    (hxs : List.Forall₂ (fun bs x => Reads bs x h) bss xs) (hbad : FailsWith bad e h)
    (hcount : xs.length < if t = 4 then v else 2 * v) {data : Array UInt8} {off fuel depth : Nat}
    (hat : At data off (head t v ++ bss.flatten ++ bad)) (hf : h + 1 < fuel)
    (hd : depth + (h + 1) ≤ maxNesting) :
    readItem data fuel depth off = .error e := by
  obtain ⟨f, rfl⟩ : ∃ f, fuel = f + 1 := ⟨fuel - 1, by omega⟩
  obtain ⟨hfront, hbadAt⟩ := at_append.mp hat
  obtain ⟨hhd, hbody⟩ := at_append.mp hfront
  obtain ⟨ai, hai, -, hhead⟩ :=
    readHead_head hhd (by omega) (by simp only [maxElements] at hv; omega) (by omega)
  have hfail : readItem data f (depth + 1) (off + (head t v).length + bss.flatten.length) =
      .error e := by
    simp only [List.length_append] at hbadAt
    exact hbad data _ f (depth + 1) (by simpa [Nat.add_assoc] using hbadAt) (by omega) (by omega)
  -- the run reads the items that read back, then stops at the one that fails
  have hlen := Reads.length_le_flatten hxs
  have hroom := hbody.length_le
  have hseq := readSeq_prefix (t := t) (c := if t = 4 then v else 2 * v)
    (Reads.forall₂_readItem hxs f (depth + 1) (by omega) (by omega))
    (data.size + 2 - xs.length) 0 (off + (head t v).length) [] hbody (by omega)
  rw [show data.size + 2 - xs.length + xs.length = data.size + 2 by omega,
    show data.size + 2 - xs.length = (data.size + 1 - xs.length) + 1 by omega, Nat.zero_add,
    readSeq_error (by omega) hfail] at hseq
  rw [readItem_definite ht hv hai hhead (by omega), hseq]
  rfl

/-- **A map fails with the first of its values that fails**, when the keys and values before it,
and its key, read back. -/
theorem fails_map {pre post : List (List UInt8 × List UInt8)} {ps : List (Item × Item)}
    {k bad : List UInt8} {kx : Item} {e : ReadError} (hpre : PairsRead h pre ps)
    (hk : Reads k kx h) (hbad : FailsWith bad e h)
    (hlen : pre.length + 1 + post.length ≤ maxElements) :
    FailsWith (writeMap (pre ++ (k, bad) :: post)) e (h + 1) := by
  intro data off fuel depth hat hf hd
  have hitems := List.rel_append hpre.flatMap (.cons hk .nil)
  have hbytes : writeMap (pre ++ (k, bad) :: post) =
      (head 5 (pre.length + 1 + post.length) ++
        ((pre.flatMap fun kv => [kv.1, kv.2]) ++ [k]).flatten ++ bad) ++
        post.flatMap fun (k, v) => k ++ v := by
    simp [writeMap, flatten_flatMap_pair, Nat.add_assoc, Nat.add_comm 1]
  rw [hbytes] at hat
  have hps : pre.length = ps.length := List.Forall₂.length_eq hpre
  exact readItem_container_error (.inr rfl) hlen hitems hbad (by simp; omega)
    (at_append.mp hat).1 hf hd

/-- **A whole input whose item fails to read fails with that item's error.** -/
theorem read_eq_error {e : ReadError} (hb : FailsWith bs e h) (hne : bs ≠ [])
    (hh : h ≤ maxNesting) : read bs = .error e := by
  have hat : At bs.toArray 0 bs := by simp [At]
  have hitem := hb bs.toArray 0 (maxNesting + 2) 0 hat (by omega) (by omega)
  have hsize : bs.toArray.size ≠ 0 := by simpa using hne
  simp only [read, hsize, if_false, hitem]
  rfl

end StackLink.Cbor
