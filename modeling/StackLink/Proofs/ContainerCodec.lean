import Mathlib
import StackLink.Proofs.Fields
import StackLink.Proofs.Registration

/-!
# Writing and reading containers

A container is written as a sixteen-byte header, the main code and one record per word
(`StackLink.Container.marshal`), and read back field by field (`StackLink.Container.parse`).
This file shows that the two are inverse, as far as the fields can hold what is written.

**The container codec round trips** (`StackLink.Container.container_codec_round_trips`). A
container of minor version 2 or later, or with no words, whose names fit their length byte and
whose lengths fit their 32-bit fields, is written to as many bytes as its size says and read
back as itself. And any payload that reads as a container is written back as its first `size`
bytes, with the reserved header bytes zeroed, and the word count too when the minor version
predates records. The facts behind it:

* **a record reads exactly where its bytes stand** (`StackLink.Container.recordAt_eq_ok_iff`):
  reading a record at `pos` succeeds exactly when the payload holds, from `pos` on, the bytes of a
  record whose lengths fit its fields, and it ends right after them; any failure is a field
  running past the payload (`StackLink.Container.isBounds_of_recordAt`);
* a run of records is read one after another (`StackLink.Container.recordsFrom_append_records`,
  `StackLink.Container.recordsFrom_eq_none`);
* the header reads back the lengths it was written with
  (`StackLink.Container.readHeader_append`, `StackLink.Container.readHeader_eq_ok`).

A 32-bit field keeps only the low bits of a length (`StackLink.Bytes.le32_mod`), so a length of
`2^32` or more is not read back.
-/

namespace StackLink

namespace Bytes

/-- A little-endian value is below `256` to the power of its width. -/
theorem leValue_lt_pow (bs : List UInt8) : leValue bs < 256 ^ bs.length := by
  induction bs with
  | nil => simp [leValue]
  | cons b bs ih =>
    have := b.toNat_lt
    simp only [leValue, List.length_cons, pow_succ]
    omega

/-- A 32-bit field that reads is the four bytes of its value. -/
theorem readLE32_eq_some {bs : List UInt8} {o v : Nat} (h : readLE32 bs o = some v) :
    o + 4 ≤ bs.length ∧ (bs.drop o).take 4 = le32 v ∧ v < 2 ^ 32 := by
  unfold readLE32 readLE at h
  split at h
  · rename_i hle
    simp only [Option.some.injEq] at h
    subst h
    have hl : ((bs.drop o).take 4).length = 4 := by simp; omega
    refine ⟨hle, (le32_leValue hl).symm, ?_⟩
    have := leValue_lt_pow ((bs.drop o).take 4)
    rw [hl] at this
    norm_num at this ⊢
    exact this
  · cases h

end Bytes

/-- A word whose record holds its lengths whole: a name of at most 255 bytes, for the length
byte, and code of fewer than `2^32` bytes, for the 32-bit code length. -/
def WordDef.Fits (w : WordDef) : Prop :=
  w.name.length ≤ Container.maxNameLen ∧ w.code.length < 2 ^ 32

theorem WordDef.length_record (w : WordDef) :
    w.record.length = 1 + w.name.length + 4 + w.code.length := by
  simp [WordDef.record]
  omega

namespace Container

variable {P : List UInt8} {index pos p : Nat} {w : WordDef}

/-! ### One record -/

/-- **A record is read where it stands**, whatever comes before and after it. -/
theorem recordAt_append_record (hw : w.Fits) (pre suf : List UInt8) (index : Nat) :
    recordAt (pre ++ w.record ++ suf) index pre.length =
      .ok (w, pre.length + w.record.length) := by
  obtain ⟨hname, hcode⟩ := hw
  -- the payload from the record on: length byte, name, code length, code, what follows
  have hP : pre ++ w.record ++ suf = pre ++ (UInt8.ofNat w.name.length ::
      (w.name ++ (Bytes.le32 w.code.length ++ (w.code ++ suf)))) := by
    simp [WordDef.record]
  have hn : (UInt8.ofNat w.name.length).toNat = w.name.length := by
    simp only [UInt8.toNat_ofNat']
    exact Nat.mod_eq_of_lt (by simp [maxNameLen] at hname; omega)
  have hname' : ((pre ++ w.record ++ suf).drop (pre.length + 1)).take w.name.length = w.name := by
    rw [hP, List.drop_length_add_append, List.drop_one, List.tail_cons, List.take_left' rfl]
  have hlen : (pre ++ w.record ++ suf).length =
      pre.length + 1 + w.name.length + 4 + w.code.length + suf.length := by
    simp [WordDef.length_record]
    omega
  have hcl : Bytes.readLE32 (pre ++ w.record ++ suf) (pre.length + 1 + w.name.length) =
      some w.code.length := by
    have hpre : (UInt8.ofNat w.name.length :: w.name).length = 1 + w.name.length := by
      simp; omega
    rw [hP, Bytes.readLE32, Nat.add_assoc, Bytes.readLE_append_right, ← hpre,
      show UInt8.ofNat w.name.length :: (w.name ++ (Bytes.le32 w.code.length ++ (w.code ++ suf))) =
        (UInt8.ofNat w.name.length :: w.name) ++ (Bytes.le32 w.code.length ++ (w.code ++ suf))
        from rfl, ← Nat.add_zero (UInt8.ofNat w.name.length :: w.name).length,
      Bytes.readLE_append_right, ← Bytes.readLE32, Bytes.readLE32_le32_append hcode]
  have hcode' : ((pre ++ w.record ++ suf).drop (pre.length + 1 + w.name.length + 4)).take
      w.code.length = w.code := by
    have hpre : (UInt8.ofNat w.name.length :: (w.name ++ Bytes.le32 w.code.length)).length =
        1 + w.name.length + 4 := by
      simp; omega
    rw [hP, Nat.add_assoc, Nat.add_assoc, List.drop_length_add_append, ← Nat.add_assoc, ← hpre,
      show UInt8.ofNat w.name.length :: (w.name ++ (Bytes.le32 w.code.length ++ (w.code ++ suf))) =
        (UInt8.ofNat w.name.length :: (w.name ++ Bytes.le32 w.code.length)) ++ (w.code ++ suf)
        by simp, List.drop_left' rfl, List.take_left' rfl]
  have hfirst : (pre ++ w.record ++ suf)[pre.length]? = some (UInt8.ofNat w.name.length) := by
    rw [hP, List.getElem?_append_right (Nat.le_refl _), Nat.sub_self]
    rfl
  unfold recordAt
  rw [hfirst]
  dsimp only
  rw [hn, if_neg (by omega), hname', hcl]
  dsimp only
  rw [if_neg (by omega), hcode', WordDef.length_record]
  simp only [Except.ok.injEq, Prod.mk.injEq, true_and]
  omega

/-- A record that reads stands whole at `pos`, with lengths that fit its fields, and reading
ends right after it. -/
theorem fits_of_recordAt (h : recordAt P index pos = .ok (w, p)) :
    w.Fits ∧ pos + w.record.length ≤ P.length ∧ (P.drop pos).take w.record.length = w.record ∧
      p = pos + w.record.length := by
  unfold recordAt at h
  split at h
  · cases h
  · rename_i len hlen
    dsimp only at h
    split at h
    · cases h
    · rename_i hname
      split at h
      · cases h
      · rename_i c hc
        split at h
        · cases h
        · rename_i hcode
          simp only [Except.ok.injEq, Prod.mk.injEq] at h
          obtain ⟨rfl, rfl⟩ := h
          obtain ⟨-, hcbytes, hclt⟩ := Bytes.readLE32_eq_some hc
          obtain ⟨hpos, hget⟩ := List.getElem?_eq_some_iff.mp hlen
          have hnl : ((P.drop (pos + 1)).take len.toNat).length = len.toNat := by simp; omega
          have hcl : ((P.drop (pos + 1 + len.toNat + 4)).take c).length = c := by simp; omega
          have hrec : (⟨(P.drop (pos + 1)).take len.toNat,
              (P.drop (pos + 1 + len.toNat + 4)).take c⟩ : WordDef).record.length =
              1 + len.toNat + 4 + c := by
            rw [WordDef.length_record]
            simp only [hnl, hcl]
          refine ⟨⟨?_, by dsimp only; rw [hcl]; exact hclt⟩, by omega, ?_, by omega⟩
          · have := len.toNat_lt
            simp only [hnl, maxNameLen]
            omega
          · -- the record's bytes: the length byte, the name, the code length and the code
            have hdrop : P.drop pos = len :: P.drop (pos + 1) := by
              rw [List.drop_eq_getElem_cons hpos, hget]
            have hlenbyte : UInt8.ofNat len.toNat = len := by
              apply UInt8.toNat_inj.mp
              simp
            rw [hrec, hdrop, show 1 + len.toNat + 4 + c = len.toNat + 4 + c + 1 by omega,
              List.take_succ_cons, List.take_add, List.take_add, List.drop_drop, List.drop_drop,
              hcbytes]
            simp only [WordDef.record, hnl, hcl, hlenbyte, List.cons_append, List.append_assoc]
            simp only [Nat.add_assoc]

/-- **A record reads exactly where its bytes stand**: reading at `pos` succeeds exactly when the
payload holds, from `pos` on, the record of a word whose lengths fit its fields, and ends right
after it. -/
theorem recordAt_eq_ok_iff : recordAt P index pos = .ok (w, p) ↔
    w.Fits ∧ pos + w.record.length ≤ P.length ∧ (P.drop pos).take w.record.length = w.record ∧
      p = pos + w.record.length := by
  refine ⟨fits_of_recordAt, ?_⟩
  rintro ⟨hw, hle, htake, rfl⟩
  -- the payload is what comes before `pos`, the record, and what follows it
  have hsplit : P.take pos ++ w.record ++ (P.drop pos).drop w.record.length = P := calc
    _ = P.take pos ++ ((P.drop pos).take w.record.length ++ (P.drop pos).drop w.record.length) := by
      rw [htake, List.append_assoc]
    _ = P := by rw [List.take_append_drop, List.take_append_drop]
  have hpre : (P.take pos).length = pos := by simp; omega
  have h := recordAt_append_record hw (P.take pos) ((P.drop pos).drop w.record.length) index
  rwa [hpre, hsplit] at h

/-- Reading a record fails only with a field running past the payload. -/
theorem isBounds_of_recordAt {e : ContainerError} (h : recordAt P index pos = .error e) :
    e.isBounds = true := by
  unfold recordAt at h
  split at h
  · cases h; rfl
  · dsimp only at h
    split at h
    · cases h; rfl
    · split at h
      · cases h; rfl
      · split at h
        · cases h; rfl
        · cases h

/-! ### Runs of records -/

@[simp] theorem recordsFrom_zero : recordsFrom P index pos 0 = ([], none) := rfl

/-- **Records are read one after another**: past records that stand whole, reading goes on
where the last of them ends. -/
theorem recordsFrom_append_records (ws : List WordDef) (hws : ∀ w ∈ ws, w.Fits)
    (pre rest : List UInt8) (index k : Nat) :
    (recordsFrom (pre ++ ws.flatMap WordDef.record ++ rest) index pre.length
        (ws.length + k)).1.map Prod.fst =
      ws ++ (recordsFrom (pre ++ ws.flatMap WordDef.record ++ rest) (index + ws.length)
        (pre ++ ws.flatMap WordDef.record).length k).1.map Prod.fst ∧
    (recordsFrom (pre ++ ws.flatMap WordDef.record ++ rest) index pre.length
        (ws.length + k)).2 =
      (recordsFrom (pre ++ ws.flatMap WordDef.record ++ rest) (index + ws.length)
        (pre ++ ws.flatMap WordDef.record).length k).2 := by
  induction ws generalizing pre index with
  | nil => simp
  | cons w ws ih =>
    -- the first record is read where it stands, and the rest from where it ends
    have hP : pre ++ (w :: ws).flatMap WordDef.record ++ rest =
        pre ++ w.record ++ (ws.flatMap WordDef.record ++ rest) := by
      simp
    have hP' : pre ++ (w :: ws).flatMap WordDef.record ++ rest =
        (pre ++ w.record) ++ ws.flatMap WordDef.record ++ rest := by
      simp
    have hfirst := recordAt_append_record (hws w List.mem_cons_self) pre
      (ws.flatMap WordDef.record ++ rest) index
    rw [← hP] at hfirst
    obtain ⟨ih1, ih2⟩ := ih (fun v hv => hws v (List.mem_cons_of_mem w hv)) (pre ++ w.record)
      (index + 1)
    rw [← hP', List.length_append] at ih1 ih2
    have hcount : (w :: ws).length + k = (ws.length + k) + 1 := by simp; omega
    have hend : (pre ++ (w :: ws).flatMap WordDef.record).length =
        (pre ++ w.record ++ ws.flatMap WordDef.record).length := by
      simp
    rw [hcount, recordsFrom, hfirst, hend, show index + (w :: ws).length = index + 1 + ws.length
      by simp; omega]
    dsimp only
    simp only [List.map_cons, ih1, ih2, List.cons_append, and_self]

/-- Records read without a failure stand whole one after another from where reading starts,
as many as were asked for. -/
theorem recordsFrom_eq_none {k : Nat} {rs : List (WordDef × Nat)} (hpos : pos ≤ P.length)
    (h : recordsFrom P index pos k = (rs, none)) :
    rs.length = k ∧ (∀ w ∈ rs.map Prod.fst, w.Fits) ∧
      pos + ((rs.map Prod.fst).flatMap WordDef.record).length ≤ P.length ∧
      (P.drop pos).take ((rs.map Prod.fst).flatMap WordDef.record).length =
        (rs.map Prod.fst).flatMap WordDef.record := by
  induction k generalizing index pos rs with
  | zero =>
    simp only [recordsFrom, Prod.mk.injEq] at h
    obtain ⟨rfl, -⟩ := h
    simpa using hpos
  | succ k ih =>
    unfold recordsFrom at h
    split at h
    · cases h
    · rename_i w p hw
      dsimp only at h
      obtain ⟨rs', hrs', rfl⟩ : ∃ rs', recordsFrom P (index + 1) p k = (rs', none) ∧
          rs = (w, k) :: rs' := by
        revert h
        rcases recordsFrom P (index + 1) p k with ⟨rs', e⟩
        intro h
        simp only [Prod.mk.injEq] at h
        obtain ⟨rfl, rfl⟩ := h
        exact ⟨rs', rfl, rfl⟩
      obtain ⟨hfit, hle, htake, rfl⟩ := fits_of_recordAt hw
      obtain ⟨hlen, hfits, hle', htake'⟩ := ih hle hrs'
      refine ⟨by simp [hlen], ?_, ?_, ?_⟩
      · intro v hv
        rcases List.mem_cons.mp hv with rfl | hv
        · exact hfit
        · exact hfits v hv
      · simp only [List.map_cons, List.flatMap_cons, List.length_append]
        omega
      · -- the first record, then the others from where it ends
        simp only [List.map_cons, List.flatMap_cons, List.length_append, List.take_add,
          htake, List.drop_drop, htake']

/-! ### The header -/

/-- **The header reads back the lengths it was written with**, when they fit their fields, and
refuses it when the main code would run past the payload. -/
theorem readHeader_append {major minor r₁ r₂ : UInt8} {s n : Nat} (hs : s < 2 ^ 32)
    (hn : n < 2 ^ 32) (rest : List UInt8) :
    readHeader (magic ++ [major, minor, r₁, r₂] ++ Bytes.le32 s ++ Bytes.le32 n ++ rest) =
      if s ≤ rest.length then .ok ⟨major, minor, s, if 2 ≤ minor then n else 0⟩
      else .error (.mainPastEnd s (16 + rest.length)) := by
  have hpay : magic ++ [major, minor, r₁, r₂] ++ Bytes.le32 s ++ Bytes.le32 n ++ rest =
      (magic ++ [major, minor, r₁, r₂]) ++ (Bytes.le32 s ++ (Bytes.le32 n ++ rest)) := by
    simp
  have hpay' : magic ++ [major, minor, r₁, r₂] ++ Bytes.le32 s ++ Bytes.le32 n ++ rest =
      (magic ++ [major, minor, r₁, r₂] ++ Bytes.le32 s) ++ (Bytes.le32 n ++ rest) := by
    simp
  have hsize : Bytes.readLE32 (magic ++ [major, minor, r₁, r₂] ++ Bytes.le32 s ++
      Bytes.le32 n ++ rest) 8 = some s := by
    rw [hpay, Bytes.readLE32, show 8 = (magic ++ [major, minor, r₁, r₂]).length + 0 from rfl,
      Bytes.readLE_append_right, ← Bytes.readLE32, Bytes.readLE32_le32_append hs]
  have hcount : Bytes.readLE32 (magic ++ [major, minor, r₁, r₂] ++ Bytes.le32 s ++
      Bytes.le32 n ++ rest) 12 = some n := by
    rw [hpay', Bytes.readLE32,
      show 12 = (magic ++ [major, minor, r₁, r₂] ++ Bytes.le32 s).length + 0 by simp [magic],
      Bytes.readLE_append_right, ← Bytes.readLE32, Bytes.readLE32_le32_append hn]
  have hlen : (magic ++ [major, minor, r₁, r₂] ++ Bytes.le32 s ++ Bytes.le32 n ++ rest).length =
      16 + rest.length := by
    simp [magic]
    omega
  unfold readHeader
  rw [hsize, hcount, hlen, if_neg (by simp [isContainer, magic, headerSize]; omega)]
  by_cases hfit : s ≤ rest.length
  · rw [if_neg (by simp [headerSize]; omega), if_pos hfit]
    rfl
  · rw [if_pos (by simp [headerSize]; omega), if_neg hfit]
    rfl

/-- What a container is written to before its records: the header and the main code. -/
theorem length_header_main (c : Container) :
    (magic ++ [c.major, c.minor, 0, 0] ++ Bytes.le32 c.main.length ++ Bytes.le32 c.words.length ++
      c.main).length = headerSize + c.main.length := by
  simp [magic, headerSize]
  omega

/-- **A written header reads back**, whatever follows the main code, when its lengths fit their
fields. -/
theorem readHeader_header_main {c : Container} (hm : 2 ≤ c.minor ∨ c.words = [])
    (hmain : c.main.length < 2 ^ 32) (hcount : c.words.length < 2 ^ 32) (rest : List UInt8) :
    readHeader (magic ++ [c.major, c.minor, 0, 0] ++ Bytes.le32 c.main.length ++
      Bytes.le32 c.words.length ++ c.main ++ rest) =
      .ok ⟨c.major, c.minor, c.main.length, c.words.length⟩ := by
  -- without records the minor version does not matter: the count read is the count written
  have hwc : (if 2 ≤ c.minor then c.words.length else 0) = c.words.length := by
    split
    · rfl
    · rename_i hlt
      simp [hm.resolve_left hlt]
  have h := @readHeader_append c.major c.minor 0 0 _ _ hmain hcount (c.main ++ rest)
  rw [if_pos (by simp), hwc] at h
  rw [← h]
  simp only [List.append_assoc]

/-- A header that reads is the magic, the two versions, two reserved bytes, the main code's
length and four count bytes, which are the word count from minor version 2 on; the main code
follows it. -/
theorem readHeader_eq_ok {h : ContainerHeader} (hh : readHeader P = .ok h) :
    ∃ r₁ r₂ cnt rest, P = magic ++ [h.major, h.minor, r₁, r₂] ++ Bytes.le32 h.codeSize ++ cnt ++
      rest ∧ cnt.length = 4 ∧ h.codeSize < 2 ^ 32 ∧ h.codeSize ≤ rest.length ∧
      h.wordCount = if 2 ≤ h.minor then Bytes.leValue cnt else 0 := by
  have hc := isContainer_of_readHeader hh
  simp only [isContainer, headerSize, Bool.and_eq_true, decide_eq_true_eq, beq_iff_eq,
    ge_iff_le] at hc
  obtain ⟨hlen, hmagic⟩ := hc
  -- the first sixteen bytes one by one
  obtain ⟨hd, rest, rfl, hhd⟩ : ∃ hd rest, P = hd ++ rest ∧ hd.length = 16 :=
    ⟨P.take 16, P.drop 16, (List.take_append_drop _ _).symm, by simp; omega⟩
  match hd, hhd with
  | [b₀, b₁, b₂, b₃, b₄, b₅, b₆, b₇, b₈, b₉, b₁₀, b₁₁, b₁₂, b₁₃, b₁₄, b₁₅], _ =>
    simp only [magic, List.cons_append, List.take_succ_cons, List.take_zero, List.cons.injEq,
      and_true] at hmagic
    obtain ⟨rfl, rfl, rfl, rfl⟩ := hmagic
    have hsize := Bytes.leValue_lt_pow [b₈, b₉, b₁₀, b₁₁]
    have hcount := Bytes.leValue_lt_pow [b₁₂, b₁₃, b₁₄, b₁₅]
    simp only [List.length_cons, List.length_nil] at hsize hcount
    -- the same bytes, written as the header writes them
    have hP : [0x56, 0x34, 0x42, 0x43, b₄, b₅, b₆, b₇, b₈, b₉, b₁₀, b₁₁, b₁₂, b₁₃, b₁₄, b₁₅] ++
        rest = magic ++ [b₄, b₅, b₆, b₇] ++ Bytes.le32 (Bytes.leValue [b₈, b₉, b₁₀, b₁₁]) ++
          Bytes.le32 (Bytes.leValue [b₁₂, b₁₃, b₁₄, b₁₅]) ++ rest := by
      rw [Bytes.le32_leValue rfl, Bytes.le32_leValue rfl]
      rfl
    rw [hP, readHeader_append (by norm_num; omega) (by norm_num; omega) rest] at hh
    split at hh
    · rename_i hfit
      cases hh
      refine ⟨b₆, b₇, [b₁₂, b₁₃, b₁₄, b₁₅], rest, ?_, rfl, by norm_num; omega, hfit, rfl⟩
      rw [hP, Bytes.le32_leValue rfl, Bytes.le32_leValue rfl]
    · cases hh

/-! ### Writing -/

/-- What is written: refused for records below minor version 2 or for a name over 255 bytes,
and otherwise the header, the main code and the records. -/
theorem marshal_eq_ok_iff {c : Container} {d : List UInt8} :
    c.marshal = .ok d ↔ (2 ≤ c.minor ∨ c.words = []) ∧
      (∀ w ∈ c.words, w.name.length ≤ maxNameLen) ∧
      d = magic ++ [c.major, c.minor, 0, 0] ++ Bytes.le32 c.main.length ++
        Bytes.le32 c.words.length ++ c.main ++ c.words.flatMap WordDef.record := by
  unfold marshal
  by_cases hm : 2 ≤ c.minor ∨ c.words = []
  · rw [if_neg (by
      rcases hm with hm | hm
      · simp [UInt8.not_lt.mpr hm]
      · simp [hm])]
    split
    · rename_i w hw
      have hmem := List.mem_of_find?_eq_some hw
      have hlong := List.find?_some hw
      simp only [reduceCtorEq, false_iff, not_and]
      intro _ hall
      have := hall w hmem
      simp at hlong
      omega
    · rename_i hnone
      simp only [List.find?_eq_none, gt_iff_lt, decide_eq_true_eq, not_lt] at hnone
      simp only [Except.ok.injEq]
      exact ⟨fun h => ⟨hm, hnone, h.symm⟩, fun h => h.2.2.symm⟩
  · have hlt : c.minor < 2 := UInt8.not_le.mp (not_or.mp hm).1
    rw [if_pos (by simp [hlt, (not_or.mp hm).2])]
    simp [hm]

/-- A container's size counts the header, the main code and every record. -/
theorem size_eq (c : Container) :
    c.size = headerSize + c.main.length + (c.words.flatMap WordDef.record).length := by
  have hsum : ∀ (ws : List WordDef) (a : Nat),
      (ws.map fun w => 1 + w.name.length + 4 + w.code.length).foldl (· + ·) a =
        a + (ws.flatMap WordDef.record).length := by
    intro ws
    induction ws with
    | nil => simp
    | cons w ws ih =>
      intro a
      simp only [List.map_cons, List.foldl_cons, ih, List.flatMap_cons, List.length_append,
        WordDef.length_record]
      omega
  unfold size
  rw [hsum, Nat.zero_add]

/-! ### Reading -/

/-- A payload that reads as a container: its header reads and so do all the records it
declares. -/
theorem parse_eq_ok {d : List UInt8} {c : Container} (h : parse d = .ok c) :
    ∃ hd rs, readHeader d = .ok hd ∧ hd.records d = (rs, none) ∧
      c = { major := hd.major, minor := hd.minor, main := hd.main d,
            words := rs.map Prod.fst } := by
  unfold parse at h
  cases hh : readHeader d with
  | error e => rw [hh] at h; cases h
  | ok hd =>
    rw [hh] at h
    rcases hr : hd.records d with ⟨rs, _ | e⟩
    · simp only [bind, Except.bind, hr, Except.ok.injEq] at h
      exact ⟨hd, rs, rfl, hr, h.symm⟩
    · simp only [bind, Except.bind, hr, reduceCtorEq] at h

/-- **A container is read back as it was written**, when its names fit their length byte and
its lengths their 32-bit fields. -/
theorem parse_marshal {c : Container} (hm : 2 ≤ c.minor ∨ c.words = [])
    (hnames : ∀ w ∈ c.words, w.name.length ≤ maxNameLen) (hmain : c.main.length < 2 ^ 32)
    (hcount : c.words.length < 2 ^ 32) (hcode : ∀ w ∈ c.words, w.code.length < 2 ^ 32) :
    ∃ d, c.marshal = .ok d ∧ d.length = c.size ∧ parse d = .ok c := by
  set pre := magic ++ [c.major, c.minor, 0, 0] ++ Bytes.le32 c.main.length ++
    Bytes.le32 c.words.length ++ c.main
  have hd : c.marshal = .ok (pre ++ c.words.flatMap WordDef.record) :=
    marshal_eq_ok_iff.mpr ⟨hm, hnames, rfl⟩
  have hprelen : pre.length = headerSize + c.main.length := length_header_main c
  refine ⟨_, hd, by rw [List.length_append, hprelen, size_eq], ?_⟩
  have hheader : readHeader (pre ++ c.words.flatMap WordDef.record) =
      .ok ⟨c.major, c.minor, c.main.length, c.words.length⟩ :=
    readHeader_header_main hm hmain hcount _
  have hrecords := recordsFrom_append_records c.words
    (fun w hw => ⟨hnames w hw, hcode w hw⟩) pre [] 0 0
  simp only [List.append_nil, Nat.add_zero, hprelen, recordsFrom_zero, List.map_nil] at hrecords
  rw [parse_of_records hheader (by simpa [ContainerHeader.records] using hrecords.2)]
  have hmain' : ContainerHeader.main ⟨c.major, c.minor, c.main.length, c.words.length⟩
      (pre ++ c.words.flatMap WordDef.record) = c.main := by
    simp [ContainerHeader.main, pre, magic, headerSize, Bytes.le32]
  simp only [ContainerHeader.records, hmain', hrecords.1]

/-- The byte at `p` of a payload as it is written back: the reserved bytes 6 and 7 are zero, and
so are the count bytes 12 to 15 when the minor version predates records. -/
def blankReserved (minor : UInt8) (p : Nat) (b : UInt8) : UInt8 :=
  if p = 6 ∨ p = 7 ∨ (minor < 2 ∧ 12 ≤ p ∧ p < 16) then 0 else b

/-- Blanking a header zeroes its reserved bytes, and its count bytes below minor version 2;
nothing after the header changes. -/
theorem mapIdx_blankReserved {major minor r₁ r₂ : UInt8} {s : Nat} {cnt : List UInt8}
    (hcnt : cnt.length = 4) (rest : List UInt8) :
    (magic ++ [major, minor, r₁, r₂] ++ Bytes.le32 s ++ cnt ++ rest).mapIdx
        (blankReserved minor) =
      magic ++ [major, minor, 0, 0] ++ Bytes.le32 s ++
        (if minor < 2 then Bytes.le32 0 else cnt) ++ rest := by
  match cnt, hcnt with
  | [c₀, c₁, c₂, c₃], _ =>
    have hrest : rest.mapIdx (fun i => blankReserved minor
        (i + (magic ++ [major, minor, r₁, r₂] ++ Bytes.le32 s ++ [c₀, c₁, c₂, c₃]).length)) =
        rest := by
      apply List.ext_getElem (by simp)
      intro n _ _
      simp only [List.getElem_mapIdx, blankReserved, List.length_append, magic, Bytes.length_le32,
        List.length_cons, List.length_nil]
      rw [if_neg (by omega)]
    rw [List.mapIdx_append, hrest]
    by_cases hmin : minor < 2 <;>
      simp [hmin, magic, Bytes.le32, blankReserved, List.mapIdx_cons]

/-- **A container read from a payload is written back as the payload's first `size` bytes**,
with the reserved bytes zeroed, and the count bytes too when the minor version predates
records. -/
theorem marshal_of_parse {d : List UInt8} {c : Container} (h : parse d = .ok c) :
    c.marshal = .ok ((d.take c.size).mapIdx (blankReserved c.minor)) := by
  obtain ⟨hd, rs, hh, hr, rfl⟩ := parse_eq_ok h
  obtain ⟨r₁, r₂, cnt, rest, rfl, hcnt, hcs, hcsle, hwc⟩ := readHeader_eq_ok hh
  have hhead : (magic ++ [hd.major, hd.minor, r₁, r₂] ++ Bytes.le32 hd.codeSize ++ cnt).length =
      headerSize := by
    simp [magic, hcnt, headerSize]
  have hpayload : magic ++ [hd.major, hd.minor, r₁, r₂] ++ Bytes.le32 hd.codeSize ++ cnt ++ rest =
      (magic ++ [hd.major, hd.minor, r₁, r₂] ++ Bytes.le32 hd.codeSize ++ cnt) ++ rest := rfl
  -- the records stand whole right after the main code
  obtain ⟨hlen, hfits, hle, htake⟩ :=
    recordsFrom_eq_none (by simp [magic, hcnt, headerSize]; omega) hr
  rw [hpayload, ← hhead, List.drop_length_add_append] at htake
  have hmain : hd.main (magic ++ [hd.major, hd.minor, r₁, r₂] ++ Bytes.le32 hd.codeSize ++ cnt ++
      rest) = rest.take hd.codeSize := by
    rw [ContainerHeader.main, hpayload, ← hhead, List.drop_left' rfl]
  have hmainlen : (rest.take hd.codeSize).length = hd.codeSize := by simp; omega
  -- without records the count is zero, whatever the count bytes say
  have hwords : 2 ≤ hd.minor ∨ rs.map Prod.fst = [] := by
    by_cases hmin : 2 ≤ hd.minor
    · exact .inl hmin
    · right
      rw [if_neg hmin] at hwc
      simpa [hwc] using hlen
  have hcountbytes : Bytes.le32 (rs.map Prod.fst).length =
      if hd.minor < 2 then Bytes.le32 0 else cnt := by
    rw [List.length_map, hlen, hwc]
    by_cases hmin : hd.minor < 2
    · rw [if_neg (UInt8.not_le.mpr hmin), if_pos hmin]
    · rw [if_pos (UInt8.not_lt.mp hmin), if_neg hmin, Bytes.le32_leValue hcnt]
  -- the first `size` bytes: the header, the main code and the records
  have hfirst : (magic ++ [hd.major, hd.minor, r₁, r₂] ++ Bytes.le32 hd.codeSize ++ cnt ++
      rest).take (headerSize + hd.codeSize + ((rs.map Prod.fst).flatMap WordDef.record).length) =
      magic ++ [hd.major, hd.minor, r₁, r₂] ++ Bytes.le32 hd.codeSize ++ cnt ++
        (rest.take hd.codeSize ++ (rs.map Prod.fst).flatMap WordDef.record) := by
    rw [hpayload, ← hhead, Nat.add_assoc, List.take_length_add_append, List.take_add, htake]
  rw [marshal_eq_ok_iff]
  refine ⟨hwords, fun w hw => (hfits w hw).1, ?_⟩
  dsimp only
  rw [size_eq, hmain, hmainlen, hfirst, mapIdx_blankReserved hcnt, hcountbytes]
  simp only [List.append_assoc]

/-- **The container codec round trips.** A container of minor version 2 or later, or with no
words, whose names have at most 255 bytes and whose main code length, word count and code
lengths are below `2^32`, is written, to as many bytes as its size says, and read back as
itself. And a payload that reads as a container is written back as its first `size` bytes, with
the reserved bytes 6 and 7 zeroed, and bytes 12 to 15 too when the minor version is below 2. -/
theorem container_codec_round_trips :
    (∀ c : Container, (2 ≤ c.minor ∨ c.words = []) →
      (∀ w ∈ c.words, w.name.length ≤ maxNameLen) → c.main.length < 2 ^ 32 →
      c.words.length < 2 ^ 32 → (∀ w ∈ c.words, w.code.length < 2 ^ 32) →
      ∃ d, c.marshal = .ok d ∧ d.length = c.size ∧ parse d = .ok c) ∧
    (∀ (d : List UInt8) (c : Container), parse d = .ok c →
      c.marshal = .ok ((d.take c.size).mapIdx (blankReserved c.minor))) :=
  ⟨fun _ hm hnames hmain hcount hcode => parse_marshal hm hnames hmain hcount hcode,
    fun _ _ h => marshal_of_parse h⟩

-- below minor version 2 the reserved bytes, the count bytes and what follows the main code are
-- not read
example : parse [0x56, 0x34, 0x42, 0x43, 0, 1, 7, 7, 1, 0, 0, 0, 9, 9, 9, 9, 0x51, 0xAA] =
    .ok { minor := 1, main := [0x51] } := by
  decide

end Container

end StackLink
