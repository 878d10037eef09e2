import Mathlib
import StackLink.Proofs.ContainerCodec

/-!
# Containers cut short

A container reaches the link in frames, and a payload may end before the container does. This
file shows that such a cut is always noticed, and where.

**A cut container fails at the first record it cuts**
(`StackLink.Container.cut_container_fails_after_whole_records`). Take a written container whose
lengths fit their 32-bit fields, and cut it anywhere after its main code and before its end
(so it has at least one word). The header still reads; the records are read, in order, exactly as
far as they lie whole before the cut; the next one fails with a field running past the payload;
and reading the whole container fails the same way. The facts behind it:

* a cut falls in exactly one record, after the records before it
  (`StackLink.Container.exists_cut`);
* reading a record cut short fails, and with a field running past the payload
  (`StackLink.Container.recordAt_cut`): the same bytes with the rest of the record after them
  would read as a whole record, which does not fit in the cut payload.

The 32-bit fields are what the statement needs. A container with `2^32` words writes a word
count of zero, and its first sixteen bytes read as a whole container with no words
(`StackLink.Container.wrapped_word_count_hides_cut`).
-/

namespace StackLink

namespace Container

variable {α β : Type}

/-- **A cut falls in exactly one block**: cutting a run of blocks before its end keeps the whole
blocks before one of them, and part of that one. -/
theorem exists_cut (ws : List α) (f : α → List β) {m : Nat} (hm : m < (ws.flatMap f).length) :
    ∃ n w j, ws[n]? = some w ∧ j < (f w).length ∧
      m = ((ws.take n).flatMap f).length + j ∧
      (ws.flatMap f).take m = (ws.take n).flatMap f ++ (f w).take j := by
  induction ws generalizing m with
  | nil => simp at hm
  | cons w ws ih =>
    by_cases hfirst : m < (f w).length
    · -- the cut falls in the first block
      refine ⟨0, w, m, rfl, hfirst, by simp, ?_⟩
      rw [List.flatMap_cons, List.take_append_of_le_length (Nat.le_of_lt hfirst)]
      simp
    · -- past the first block, the cut falls in one of the others
      simp only [List.flatMap_cons, List.length_append] at hm
      obtain ⟨n, v, j, hv, hj, hmj, htake⟩ := ih (m := m - (f w).length) (by omega)
      refine ⟨n + 1, v, j, by simpa using hv, hj, ?_, ?_⟩
      · simp only [List.take_succ_cons, List.flatMap_cons, List.length_append]
        omega
      · rw [List.flatMap_cons, List.take_append, List.take_of_length_le (by omega), htake]
        simp

variable {w : WordDef}

/-- **Reading a record cut short fails**, and with a field running past the payload. -/
theorem recordAt_cut (hw : w.Fits) (pre : List UInt8) {j : Nat} (hj : j < w.record.length)
    (index : Nat) :
    ∃ e, recordAt (pre ++ w.record.take j) index pre.length = .error e ∧ e.isBounds = true := by
  cases hr : recordAt (pre ++ w.record.take j) index pre.length with
  | error e => exact ⟨e, rfl, isBounds_of_recordAt hr⟩
  | ok r =>
    exfalso
    obtain ⟨v, p⟩ := r
    obtain ⟨hv, hle, htake, rfl⟩ := recordAt_eq_ok_iff.mp hr
    -- the record read is a prefix of the cut bytes, so it would also read from the whole record
    have hshort : v.record.length ≤ j := by
      simp only [List.length_append, List.length_take] at hle
      omega
    have hwhole : recordAt (pre ++ w.record) index pre.length =
        .ok (v, pre.length + v.record.length) := by
      refine recordAt_eq_ok_iff.mpr ⟨hv, by simp; omega, ?_, rfl⟩
      rw [List.drop_left' rfl] at htake ⊢
      rwa [List.take_take, Nat.min_eq_left hshort] at htake
    have hread := recordAt_append_record hw pre [] index
    rw [List.append_nil, hwhole] at hread
    simp only [Except.ok.injEq, Prod.mk.injEq] at hread
    obtain ⟨rfl, -⟩ := hread
    omega

/-- **Reading records stops at the first one cut short**: the whole records before it are read,
and then reading fails with a field running past the payload, however many records were asked
for. -/
theorem recordsFrom_cut (ws : List WordDef) (hws : ∀ v ∈ ws, v.Fits) (hw : w.Fits)
    (pre : List UInt8) {j : Nat} (hj : j < w.record.length) (index k : Nat) :
    (recordsFrom (pre ++ ws.flatMap WordDef.record ++ w.record.take j) index pre.length
        (ws.length + (k + 1))).1.map Prod.fst = ws ∧
      ∃ e, (recordsFrom (pre ++ ws.flatMap WordDef.record ++ w.record.take j) index pre.length
        (ws.length + (k + 1))).2 = some e ∧ e.isBounds = true := by
  obtain ⟨hrs, herr⟩ := recordsFrom_append_records ws hws pre (w.record.take j) index (k + 1)
  obtain ⟨e, he, hb⟩ := recordAt_cut hw (pre ++ ws.flatMap WordDef.record) hj (index + ws.length)
  have hstop : recordsFrom (pre ++ ws.flatMap WordDef.record ++ w.record.take j)
      (index + ws.length) (pre ++ ws.flatMap WordDef.record).length (k + 1) = ([], some e) := by
    simp only [recordsFrom, he]
  rw [hstop] at hrs herr
  exact ⟨by simpa using hrs, e, herr, hb⟩

/-- A container with a record that fails to read fails with that record's error. -/
theorem parse_of_record_error {P : List UInt8} {h : ContainerHeader} {e : ContainerError}
    (hh : readHeader P = .ok h) (hr : (h.records P).2 = some e) : parse P = .error e := by
  rcases hrec : h.records P with ⟨recs, fail⟩
  rw [hrec] at hr
  cases hr
  simp only [parse, hh, bind, Except.bind, hrec]

/-- **A cut container fails at the first record it cuts.** Cut a written container whose lengths
fit their fields after its main code and before its end, where only records stand (so it has
one at least): the header still reads, the records read are those of the container that lie
whole before the cut, in order, the next one fails with a field running past the payload, and
so does reading the whole container. -/
theorem cut_container_fails_after_whole_records {c : Container} {d : List UInt8} {k : Nat}
    (hm : c.marshal = .ok d) (hmain : c.main.length < 2 ^ 32)
    (hcount : c.words.length < 2 ^ 32) (hcode : ∀ w ∈ c.words, w.code.length < 2 ^ 32)
    (hk : headerSize + c.main.length ≤ k) (hkd : k < d.length) :
    ∃ h, readHeader (d.take k) = .ok h ∧
      (∃ n, (h.records (d.take k)).1.map Prod.fst = c.words.take n ∧
        headerSize + c.main.length + ((c.words.take n).flatMap WordDef.record).length ≤ k ∧
        k < headerSize + c.main.length + ((c.words.take (n + 1)).flatMap WordDef.record).length) ∧
      (∃ e, (h.records (d.take k)).2 = some e ∧ e.isBounds = true) ∧
      ∃ e, parse (d.take k) = .error e ∧ e.isBounds = true := by
  obtain ⟨hminor, hnames, rfl⟩ := marshal_eq_ok_iff.mp hm
  set pre := magic ++ [c.major, c.minor, 0, 0] ++ Bytes.le32 c.main.length ++
    Bytes.le32 c.words.length ++ c.main
  have hprelen : pre.length = headerSize + c.main.length := length_header_main c
  have hfits : ∀ w ∈ c.words, w.Fits := fun w hw => ⟨hnames w hw, hcode w hw⟩
  -- the cut falls inside record `n`, after the `n` records before it
  obtain ⟨n, w, j, hwn, hj, hmj, htake⟩ := exists_cut c.words WordDef.record
    (m := k - pre.length) (by simp only [List.length_append] at hkd; omega)
  have hn : n < c.words.length := (List.getElem?_eq_some_iff.mp hwn).1
  have hcut : (pre ++ c.words.flatMap WordDef.record).take k =
      pre ++ (c.words.take n).flatMap WordDef.record ++ w.record.take j := by
    rw [List.take_append, List.take_of_length_le (by omega), htake, ← List.append_assoc]
  rw [hcut]
  -- the header reads back whatever follows the main code
  have hheader : readHeader (pre ++ (c.words.take n).flatMap WordDef.record ++ w.record.take j) =
      .ok ⟨c.major, c.minor, c.main.length, c.words.length⟩ := by
    rw [List.append_assoc]
    exact readHeader_header_main hminor hmain hcount _
  obtain ⟨hrs, e, he, hb⟩ := recordsFrom_cut (c.words.take n)
    (fun v hv => hfits v (List.mem_of_mem_take hv)) (hfits w (List.mem_of_getElem? hwn)) pre hj 0
    (c.words.length - n - 1)
  have hlen : (c.words.take n).length + (c.words.length - n - 1 + 1) = c.words.length := by
    simp only [List.length_take]
    omega
  rw [hlen, hprelen] at hrs he
  have hnext : ((c.words.take (n + 1)).flatMap WordDef.record).length =
      ((c.words.take n).flatMap WordDef.record).length + w.record.length := by
    simp [List.take_add_one, hwn]
  refine ⟨_, hheader, ⟨n, hrs, by omega, by omega⟩, ⟨e, he, hb⟩, e, ?_, hb⟩
  exact parse_of_record_error hheader he

/-- Two words, cut inside the code length of the second: the first word is read, the second
fails. -/
theorem cut_inside_second_record_keeps_first :
    let c : Container := { main := [0x51], words := [⟨[0x61], [0x76, 0x07]⟩, ⟨[0x62], [0x51]⟩] }
    let d : List UInt8 := [0x56, 0x34, 0x42, 0x43, 0, 2, 0, 0, 1, 0, 0, 0, 2, 0, 0, 0, 0x51,
      1, 0x61, 2, 0, 0, 0, 0x76, 0x07, 1, 0x62, 1, 0, 0, 0, 0x51]
    (c.marshal = .ok d ∧ c.main.length < 2 ^ 32 ∧ c.words.length < 2 ^ 32 ∧
      (∀ w ∈ c.words, w.code.length < 2 ^ 32) ∧ headerSize + c.main.length ≤ 28 ∧
      28 < d.length) ∧
    ∃ h, readHeader (d.take 28) = .ok h ∧
      (∃ n, (h.records (d.take 28)).1.map Prod.fst = c.words.take n ∧
        headerSize + c.main.length + ((c.words.take n).flatMap WordDef.record).length ≤ 28 ∧
        28 < headerSize + c.main.length + ((c.words.take (n + 1)).flatMap WordDef.record).length) ∧
      (∃ e, (h.records (d.take 28)).2 = some e ∧ e.isBounds = true) ∧
      ∃ e, parse (d.take 28) = .error e ∧ e.isBounds = true := by
  intro c d
  have hm : c.marshal = .ok d := by decide
  have hmain : c.main.length < 2 ^ 32 := by decide
  have hcount : c.words.length < 2 ^ 32 := by decide
  have hcode : ∀ w ∈ c.words, w.code.length < 2 ^ 32 := by decide
  have hk : headerSize + c.main.length ≤ 28 := by decide
  have hkd : 28 < d.length := by decide
  exact ⟨⟨hm, hmain, hcount, hcode, hk, hkd⟩,
    cut_container_fails_after_whole_records hm hmain hcount hcode hk hkd⟩

/-- **Without the 32-bit bounds a cut can pass unnoticed.** A container of `2^32` empty words
writes a word count of zero, so its first sixteen bytes, cut before the first record, read as a
whole container with no words. -/
theorem wrapped_word_count_hides_cut :
    let c : Container := { words := List.replicate (2 ^ 32) ⟨[], []⟩ }
    ∃ d, c.marshal = .ok d ∧ c.words ≠ [] ∧ headerSize + c.main.length ≤ 16 ∧ 16 < d.length ∧
      parse (d.take 16) = .ok { words := [] } := by
  intro c
  have hwords : c.words = List.replicate (2 ^ 32) ⟨[], []⟩ := rfl
  have hmain : c.main = [] := rfl
  have hnames : ∀ w ∈ c.words, w.name.length ≤ maxNameLen := by
    intro w hw
    rw [hwords, List.mem_replicate] at hw
    rw [hw.2]
    decide
  have hhead : magic ++ [c.major, c.minor, 0, 0] ++ Bytes.le32 c.main.length ++
      Bytes.le32 c.words.length = [0x56, 0x34, 0x42, 0x43, 0, 2, 0, 0, 0, 0, 0, 0, 0, 0, 0, 0] := by
    rw [hwords, hmain, List.length_replicate]
    rfl
  refine ⟨_, marshal_eq_ok_iff.mpr ⟨Or.inl (by decide), hnames, rfl⟩, ?_, by decide, ?_, ?_⟩
  · rw [hwords]
    exact List.ne_nil_of_length_pos (by rw [List.length_replicate]; positivity)
  · -- every empty word still takes five bytes
    rw [hhead, hwords, hmain]
    simp only [List.length_append, List.length_flatMap, List.map_replicate, List.sum_replicate,
      smul_eq_mul, List.length_nil]
    have hrec : (⟨[], []⟩ : WordDef).record.length = 5 := rfl
    rw [hrec]
    norm_num
  · -- the first sixteen bytes are the header, whose word count wrapped to zero
    rw [hhead, List.append_assoc, List.take_left' (by rfl)]
    decide


end Container

end StackLink
