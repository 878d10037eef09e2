import Mathlib
import StackLink.Proofs.ContainerCodec

/-!
# Reading records one at a time

A container's records are read by a reader that walks the payload. Each call hands out the next
record, or stops: with nothing to hand out once as many records as the header declares have been
read, or with the first field that runs past the payload. `StackLink.RecordReader` is that
reader, with the position of the next record and the count of declared records still to read,
and `StackLink.RecordReader.next` is one call. A call reads the record
`StackLink.Container.recordAt` reads (`StackLink.RecordReader.next_fst`,
`StackLink.RecordReader.next_eq_ok_some_iff`), and the loop that reads a whole container,
`StackLink.Container.recordsFrom`, is the reader called until it stops
(`StackLink.RecordReader.reads_recordsFrom`).

The declared count can be as large as `2^32 - 1`, so it is not what keeps the loop short. The
payload is: every record takes at least five bytes, a length byte and a four-byte code length;
a call that hands one out moves past all of it; and no call moves past the end of the payload,
whether it succeeds or fails (`StackLink.RecordReader.pos_next_le`).

**Record reading stops within the payload**
(`StackLink.RecordReader.record_reading_stops_within_payload`). For every payload whose header
reads, a run of successful calls from the first record hands out at most as many records as the
header declares and as five-byte records fit between the main code and the end of the payload, so
the call after at most that many stops. Throughout, the reader stands within the payload; each
successful call moves it on by at least five bytes and counts exactly one declared record off;
and the loop over the records is such a run.
-/

namespace StackLink

/-- A reader over the records of a payload: the payload, the position of the next record, how
many records it has handed out, and how many more the header declares. -/
structure RecordReader where
  data : List UInt8
  pos : Nat
  read : Nat
  remaining : Nat
deriving DecidableEq, Repr

/-- The reader at the first record, right after the main code. -/
def ContainerHeader.reader (h : ContainerHeader) (payload : List UInt8) : RecordReader :=
  ⟨payload, Container.headerSize + h.codeSize, 0, h.wordCount⟩

@[simp] theorem ContainerHeader.reader_data (h : ContainerHeader) (payload : List UInt8) :
    (h.reader payload).data = payload := rfl

@[simp] theorem ContainerHeader.reader_pos (h : ContainerHeader) (payload : List UInt8) :
    (h.reader payload).pos = Container.headerSize + h.codeSize := rfl

@[simp] theorem ContainerHeader.reader_remaining (h : ContainerHeader) (payload : List UInt8) :
    (h.reader payload).remaining = h.wordCount := rfl

/-- The reader at the first record stands within the payload: the header reads only when the main
code does. -/
theorem ContainerHeader.reader_pos_le {payload : List UInt8} {h : ContainerHeader}
    (hh : Container.readHeader payload = .ok h) :
    (h.reader payload).pos ≤ (h.reader payload).data.length := by
  unfold Container.readHeader at hh
  split at hh
  · cases hh
  · dsimp only at hh
    split at hh
    · cases hh
    · rename_i hfit
      cases hh
      simp only [ContainerHeader.reader_pos, ContainerHeader.reader_data]
      omega

namespace RecordReader

/-- The count of declared records not yet read, as the reader reports it: capped at the largest
signed 32-bit value. -/
def remainingCapped (r : RecordReader) : Nat := min r.remaining (2 ^ 31 - 1)

/-- One call: nothing once no declared record is left, else the next record, or the first of its
four fields that runs past the payload. Each field read moves the position past it, so a call
that fails leaves the reader past the fields it did read. -/
def next (r : RecordReader) : Except ContainerError (Option WordDef) × RecordReader :=
  if r.remaining = 0 then (.ok none, r)
  else
    match r.data[r.pos]? with
    | none => (.error (.nameLengthPastEnd r.read r.pos), r)
    | some len =>
      let p := r.pos + 1
      if p + len.toNat > r.data.length then (.error (.namePastEnd r.read p), { r with pos := p })
      else
        let name := (r.data.drop p).take len.toNat
        let p := p + len.toNat
        match Bytes.readLE32 r.data p with
        | none => (.error (.codeLengthPastEnd name p), { r with pos := p })
        | some c =>
          let p := p + 4
          if p + c > r.data.length then (.error (.codePastEnd name c p), { r with pos := p })
          else
            (.ok (some ⟨name, (r.data.drop p).take c⟩),
              { r with pos := p + c, read := r.read + 1, remaining := r.remaining - 1 })

/-- `r.Reads ws r'`: successive calls from `r` hand out the records `ws`, in order, and leave the
reader at `r'`. -/
inductive Reads : RecordReader → List WordDef → RecordReader → Prop
  | nil (r : RecordReader) : Reads r [] r
  | cons {r r' r'' : RecordReader} {w : WordDef} {ws : List WordDef} :
      r.next = (.ok (some w), r') → Reads r' ws r'' → Reads r (w :: ws) r''

variable {r r' r'' : RecordReader} {w : WordDef} {ws : List WordDef} {p : Nat}

/-! ### One call -/

/-- With no declared record left, a call hands out nothing and leaves the reader as it was. -/
theorem next_of_remaining_eq_zero (h : r.remaining = 0) : r.next = (.ok none, r) := by
  simp [next, h]

/-- **A call reads the record `recordAt` reads**: nothing once no declared record is left, else the
record at the reader's position, or the error reading it fails with. -/
theorem next_fst (r : RecordReader) :
    r.next.1 = if r.remaining = 0 then .ok none
      else (fun wp => some wp.1) <$> Container.recordAt r.data r.read r.pos := by
  -- the two read the same fields in the same order: split both on each field at once
  unfold next Container.recordAt
  split_ifs
  · rfl
  · cases r.data[r.pos]? with
    | none => rfl
    | some len =>
      dsimp only
      split_ifs
      · rfl
      · cases Bytes.readLE32 r.data (r.pos + 1 + len.toNat) with
        | none => rfl
        | some c =>
          dsimp only
          split_ifs <;> rfl

/-- A call that finds a record hands it out and moves past it, counting it off. -/
theorem next_of_recordAt (h0 : r.remaining ≠ 0)
    (hw : Container.recordAt r.data r.read r.pos = .ok (w, p)) :
    r.next = (.ok (some w), { r with pos := p, read := r.read + 1, remaining := r.remaining - 1 }) := by
  -- split the call and the record read on each field at once, as for `next_fst`
  unfold next
  unfold Container.recordAt at hw
  rw [if_neg h0]
  revert hw
  cases r.data[r.pos]? with
  | none => intro hw; cases hw
  | some len =>
    dsimp only
    split_ifs
    · intro hw; cases hw
    · cases Bytes.readLE32 r.data (r.pos + 1 + len.toNat) with
      | none => intro hw; cases hw
      | some c =>
        dsimp only
        split_ifs
        · intro hw; cases hw
        · intro hw
          simp only [Except.ok.injEq, Prod.mk.injEq] at hw
          obtain ⟨rfl, rfl⟩ := hw
          rfl

theorem next_eq_ok_some_iff : r.next = (.ok (some w), r') ↔
    r.remaining ≠ 0 ∧ ∃ p, Container.recordAt r.data r.read r.pos = .ok (w, p) ∧
      r' = { r with pos := p, read := r.read + 1, remaining := r.remaining - 1 } := by
  constructor
  · intro hn
    have h1 := congrArg Prod.fst hn
    rw [next_fst] at h1
    split at h1
    · cases h1
    · rename_i h0
      refine ⟨h0, ?_⟩
      cases hw : Container.recordAt r.data r.read r.pos with
      | error e => rw [hw] at h1; cases h1
      | ok wp =>
        obtain ⟨v, p⟩ := wp
        rw [hw] at h1
        cases h1
        rw [next_of_recordAt h0 hw, Prod.mk.injEq] at hn
        exact ⟨p, rfl, hn.2.symm⟩
  · rintro ⟨h0, p, hw, rfl⟩
    exact next_of_recordAt h0 hw

/-- A call keeps the payload. -/
@[simp] theorem data_next (r : RecordReader) : r.next.2.data = r.data := by
  unfold next
  split
  · rfl
  · split
    · rfl
    · dsimp only
      split
      · rfl
      · split
        · rfl
        · split <;> rfl

/-- **No call moves past the end of the payload**, whether it hands out a record or fails. -/
theorem pos_next_le (h : r.pos ≤ r.data.length) : r.next.2.pos ≤ r.data.length := by
  unfold next
  split
  · exact h
  · split
    · exact h
    · rename_i len hlen
      have hpos := (List.getElem?_eq_some_iff.mp hlen).1
      dsimp only
      split
      · dsimp only
        omega
      · rename_i hname
        split
        · dsimp only
          omega
        · rename_i c hc
          have hc4 := (Bytes.readLE32_eq_some hc).1
          split
          · dsimp only
            omega
          · dsimp only
            omega

/-- Every record takes at least five bytes: its name length byte and its four-byte code length. -/
theorem five_le_length_record (w : WordDef) : 5 ≤ w.record.length := by
  rw [WordDef.length_record]
  omega

/-- **A call that hands out a record moves past it**: the record stands whole at the reader's
position, within the payload, and the reader moves on by its length and counts it off. -/
theorem next_eq_ok_some (hn : r.next = (.ok (some w), r')) :
    r'.data = r.data ∧ r'.read = r.read + 1 ∧ r'.remaining + 1 = r.remaining ∧
      r'.pos = r.pos + w.record.length ∧
      (r.data.drop r.pos).take w.record.length = w.record := by
  obtain ⟨h0, p, hw, rfl⟩ := next_eq_ok_some_iff.mp hn
  obtain ⟨-, -, htake, rfl⟩ := Container.fits_of_recordAt hw
  exact ⟨rfl, rfl, by dsimp only; omega, rfl, htake⟩

/-- **Each successful call moves on by at least five bytes and counts one declared record off.** -/
theorem next_advances (hn : r.next = (.ok (some w), r')) :
    r.pos + 5 ≤ r'.pos ∧ r'.remaining + 1 = r.remaining := by
  obtain ⟨-, -, hrem, hpos, -⟩ := next_eq_ok_some hn
  have := five_le_length_record w
  omega

/-! ### Runs of calls -/

/-- What successful calls from `r` that hand out `ws` leave: the same payload, one record counted
off per call, and the records standing whole, one after another, from `r`'s position to the
reader's. -/
structure Consumed (r : RecordReader) (ws : List WordDef) (r' : RecordReader) : Prop where
  data : r'.data = r.data
  read : r'.read = r.read + ws.length
  remaining : r'.remaining + ws.length = r.remaining
  pos : r'.pos = r.pos + (ws.flatMap WordDef.record).length
  bytes : (r.data.drop r.pos).take (ws.flatMap WordDef.record).length = ws.flatMap WordDef.record

/-- **A run of calls consumes the records it hands out**, one after another. -/
theorem Reads.consumed (h : r.Reads ws r') : Consumed r ws r' := by
  induction h with
  | nil r => exact ⟨rfl, rfl, rfl, by simp, by simp⟩
  | cons hn _ ih =>
    obtain ⟨hdata, hread, hrem, hpos, hbytes⟩ := next_eq_ok_some hn
    obtain ⟨hdata', hread', hrem', hpos', hbytes'⟩ := ih
    refine ⟨hdata'.trans hdata, ?_, ?_, ?_, ?_⟩
    · simp only [hread', hread, List.length_cons]
      omega
    · simp only [List.length_cons]
      omega
    · simp only [hpos', hpos, List.flatMap_cons, List.length_append]
      omega
    · -- the first record, then the others from where it ends
      rw [hdata, hpos] at hbytes'
      simp only [List.flatMap_cons, List.length_append, List.take_add, hbytes, List.drop_drop,
        hbytes']

/-- Records laid end to end take at least five bytes each. -/
theorem five_mul_length_le (ws : List WordDef) :
    5 * ws.length ≤ (ws.flatMap WordDef.record).length := by
  induction ws with
  | nil => simp
  | cons w ws ih =>
    have := five_le_length_record w
    simp only [List.length_cons, List.flatMap_cons, List.length_append]
    omega

/-- The records a run consumes fit in what is left of the payload. -/
theorem Consumed.length_flatMap_le (hc : Consumed r ws r') :
    (ws.flatMap WordDef.record).length ≤ r.data.length - r.pos := by
  have hlen := congrArg List.length hc.bytes
  simp only [List.length_take, List.length_drop] at hlen
  omega

/-- **A run stays within the payload**, when it starts there. -/
theorem Consumed.pos_le (hc : Consumed r ws r') (hr : r.pos ≤ r.data.length) :
    r'.pos ≤ r.data.length := by
  have := hc.length_flatMap_le
  rw [hc.pos]
  omega

/-- **A run hands out no more records than are declared, nor than five-byte records fit in what
is left of the payload.** -/
theorem Consumed.length_le (hc : Consumed r ws r') :
    ws.length ≤ min r.remaining ((r.data.length - r.pos) / 5) := by
  have hlen := hc.length_flatMap_le
  have h5 := five_mul_length_le ws
  have hrem := hc.remaining
  refine le_min (by omega) ?_
  rw [Nat.le_div_iff_mul_le (by norm_num)]
  omega

/-- **A run from a reader within the payload stays within it**: it hands out no more records
than are declared, nor than five-byte records fit in what is left of the payload; it moves on by
at least five bytes per record; and it ends within the payload, as does the call after it. -/
theorem Reads.stays_within (hr : r.Reads ws r') (hin : r.pos ≤ r.data.length) :
    ws.length ≤ min r.remaining ((r.data.length - r.pos) / 5) ∧ r.pos + 5 * ws.length ≤ r'.pos ∧
      r'.pos ≤ r.data.length ∧ r'.next.2.pos ≤ r.data.length ∧
      r'.remaining = r.remaining - ws.length := by
  have hc := hr.consumed
  have hpos := hc.pos_le hin
  refine ⟨hc.length_le, ?_, hpos, ?_, ?_⟩
  · have := five_mul_length_le ws
    rw [hc.pos]
    omega
  · rw [← hc.data]
    exact pos_next_le (hc.data ▸ hpos)
  · have := hc.remaining
    omega

/-! ### The loop over a container's records -/

/-- **The loop over a container's records is the reader called until it stops**: `recordsFrom`
hands out the records of successive calls from where it starts, and its error is what the next
call stops with. -/
theorem reads_recordsFrom (P : List UInt8) (index pos k : Nat) :
    ∃ r, (⟨P, pos, index, k⟩ : RecordReader).Reads ((Container.recordsFrom P index pos k).1.map
      Prod.fst) r ∧ r.next.1 = (Container.recordsFrom P index pos k).2.elim (.ok none) .error := by
  induction k generalizing index pos with
  | zero => exact ⟨_, .nil _, by rw [next_of_remaining_eq_zero rfl]; rfl⟩
  | succ k ih =>
    unfold Container.recordsFrom
    split
    · rename_i e he
      refine ⟨_, .nil _, ?_⟩
      rw [next_fst, if_neg (by simp), he]
      rfl
    · rename_i w p hw
      obtain ⟨r, hr, hstop⟩ := ih (index + 1) p
      exact ⟨r, .cons (next_of_recordAt (by simp) hw) hr, hstop⟩

/-- **Record reading stops within the payload.** Take a payload whose header reads, with any
declared word count up to `2^32 - 1`. A run of successful calls from the first record hands out
at most as many records as are declared, and as five-byte records fit between the main code and
the end of the payload; so the call after at most that many stops, with nothing left or an
error. Along the run the reader stands within the payload, also after the call that stops it; it
has moved on by at least five bytes per record; and the declared count left, reported capped at
`2^31 - 1`, is the declared count less the records read. Each successful call moves the reader
on by at least five bytes and counts exactly one declared record off. And the loop over the
records, which reading a container and running one on the link both make, is such a run followed
by the call that stops it. -/
theorem record_reading_stops_within_payload {payload : List UInt8} {h : ContainerHeader}
    (hh : Container.readHeader payload = .ok h) :
    (∀ ws r, (h.reader payload).Reads ws r →
      ws.length ≤ min h.wordCount ((payload.length - Container.headerSize - h.codeSize) / 5) ∧
      Container.headerSize + h.codeSize + 5 * ws.length ≤ r.pos ∧ r.pos ≤ payload.length ∧
      r.next.2.pos ≤ payload.length ∧ r.remaining = h.wordCount - ws.length ∧
      r.remainingCapped = min (h.wordCount - ws.length) (2 ^ 31 - 1)) ∧
    (∀ (r r' : RecordReader) w, r.next = (.ok (some w), r') →
      r.pos + 5 ≤ r'.pos ∧ r'.remaining + 1 = r.remaining) ∧
    ∃ r, (h.reader payload).Reads ((h.records payload).1.map Prod.fst) r ∧
      r.next.1 = (h.records payload).2.elim (.ok none) .error := by
  refine ⟨?_, fun _ _ _ hn => next_advances hn, reads_recordsFrom _ _ _ _⟩
  intro ws r hr
  obtain ⟨hlen, hpos, hle, hnext, hrem⟩ := hr.stays_within (ContainerHeader.reader_pos_le hh)
  simp only [ContainerHeader.reader_data, ContainerHeader.reader_pos,
    ContainerHeader.reader_remaining] at hlen hpos hle hnext hrem
  refine ⟨by rwa [Nat.sub_sub], hpos, hle, hnext, hrem, by rw [remainingCapped, hrem]⟩

/-- A header that declares `2^32 - 1` words over room for one record of six bytes: a run of
successful calls hands out at most that one record. -/
theorem huge_count_reads_at_most_one_record :
    Container.readHeader [0x56, 0x34, 0x42, 0x43, 0, 2, 0, 0, 0, 0, 0, 0, 0xFF, 0xFF, 0xFF, 0xFF,
      1, 0x41, 0, 0, 0, 0] = .ok ⟨0, 2, 0, 4294967295⟩ ∧
    ∀ ws r, (ContainerHeader.reader ⟨0, 2, 0, 4294967295⟩ [0x56, 0x34, 0x42, 0x43, 0, 2, 0, 0, 0,
      0, 0, 0, 0xFF, 0xFF, 0xFF, 0xFF, 1, 0x41, 0, 0, 0, 0]).Reads ws r → ws.length ≤ 1 := by
  have hh : Container.readHeader [0x56, 0x34, 0x42, 0x43, 0, 2, 0, 0, 0, 0, 0, 0, 0xFF, 0xFF, 0xFF,
      0xFF, 1, 0x41, 0, 0, 0, 0] = .ok ⟨0, 2, 0, 4294967295⟩ := by decide
  refine ⟨hh, fun ws r hr => ?_⟩
  exact le_trans ((record_reading_stops_within_payload hh).1 ws r hr).1 (by decide)

end RecordReader

end StackLink
