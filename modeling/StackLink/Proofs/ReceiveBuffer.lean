import Mathlib
import StackLink.Proofs.Reception

/-!
# The receive buffer holds one frame and never outgrows it

A receiver reserves room for the largest frame its capacity admits, `capacity + 5` bytes, and
never asks for more. This file shows why that room suffices, whatever bytes arrive and
whenever the receiver is reset.

The receivers a fresh one can be in are those that feeding bytes and resetting lead to
(`StackLink.Receiver.Fed`, which also keeps the bytes fed since the last reset). On top of the
frame shape of `StackLink.Receiver.Inv` (the bytes since the marker, phase by phase) the
capacity check at the high length byte gives a bound on the body length
(`StackLink.Receiver.Bounded`), and the two together are kept by every byte
(`StackLink.Receiver.step_bounded`).

**The receive buffer holds the current frame**
(`StackLink.Receiver.receive_buffer_holds_current_frame`): in every phase but `WaitStart`
the buffer is exactly the bytes fed since the marker that started the frame, which arrived
while the receiver waited for one; its length is fixed by the phase and the counters
(1, 2, 3, `4 + pos` and `4 + length`), the body length is within the capacity, it never
exceeds `capacity + 5` bytes in any phase, and every frame handed on is `5 + length` bytes
long. The facts below it:

* a reset makes a receiver fresh again (`StackLink.Receiver.reset_eq_new`), so a receiver is
  the fresh one fed the bytes since its last reset (`StackLink.Receiver.Fed.eq_feed`);
* a byte either starts a frame with the marker or adds itself to the frame in progress
  (`StackLink.Receiver.step_buf`), so the buffer is what came since the marker
  (`StackLink.Receiver.feed_since_marker`);
* the length of the buffer follows from its shape (`StackLink.Receiver.Inv.length_buf`), and
  with the bound it stays within `capacity + 5` bytes (`StackLink.Receiver.Inv.length_buf_le`).
-/

namespace StackLink

namespace Receiver

/-- The receivers that a fresh one of capacity `c` in direction `d` reaches by taking bytes
and being reset, each with the bytes it has taken since it was made or last reset. -/
inductive Fed (c : Nat) (d : Direction) : Receiver → List UInt8 → Prop
  | new : Fed c d (Receiver.new c d) []
  | step {r : Receiver} {s : List UInt8} (b : UInt8) : Fed c d r s → Fed c d (r.step b).1 (s ++ [b])
  | reset {r : Receiver} {s : List UInt8} : Fed c d r s → Fed c d r.reset []

/-- What the capacity check leaves, phase by phase: once the high length byte is in, the body
length is within the capacity; between frames the buffer holds at most a whole frame of the
largest body. -/
def Bounded (r : Receiver) : Prop :=
  match r.phase with
  | .waitStart => r.buf.length ≤ r.capacity + 5
  | .waitLenLow | .waitLenHigh => True
  | .waitCommand | .waitPayload | .waitChecksum => r.length ≤ r.capacity

variable {r : Receiver} {b : UInt8} {c : Nat} {d : Direction} {s : List UInt8}

/-! ### Resets and runs -/

/-- A reset receiver is a fresh one of the same capacity and direction. -/
theorem reset_eq_new (r : Receiver) : r.reset = Receiver.new r.capacity r.direction := rfl

theorem feed_concat_fst (r : Receiver) (s : List UInt8) (b : UInt8) :
    (r.feed (s ++ [b])).1 = ((r.feed s).1.step b).1 := by
  rw [feed_append]
  rfl

/-- A receiver reached by bytes and resets is the fresh one fed the bytes since the last
reset. -/
theorem Fed.eq_feed (h : r.Fed c d s) : r = ((Receiver.new c d).feed s).1 := by
  induction h with
  | new => rfl
  | step b _ ih => rw [feed_concat_fst, ← ih]
  | reset _ ih =>
    -- resets keep the capacity and direction, which feeding never changes
    rw [reset_eq_new, ih, feed_capacity, feed_direction]
    rfl

/-! ### The buffer since the marker -/

/-- What one byte does to the buffer of a frame in progress: the marker starts it while the
receiver waits, and any other phase appends the byte. -/
theorem step_buf (h : (r.step b).1.phase ≠ .waitStart) :
    (r.phase = .waitStart ∧ b = stx ∧ (r.step b).1.buf = [stx]) ∨
      (r.phase ≠ .waitStart ∧ (r.step b).1.buf = r.buf ++ [b]) := by
  cases hp : r.phase with
  | waitStart =>
    by_cases hb : b = stx
    · subst hb
      rw [step_start hp]
      exact .inl ⟨rfl, rfl, rfl⟩
    · rw [step_skip hp hb] at h
      exact absurd hp h
  | waitLenLow => rw [step_lenLow hp]; exact .inr ⟨nofun, rfl⟩
  | waitLenHigh =>
    by_cases hfit : r.length + 256 * b.toNat - r.direction.bias ≤ r.capacity
    · rw [step_lenHigh_fits hp hfit]; exact .inr ⟨nofun, rfl⟩
    · rw [step_lenHigh_over hp (by omega)] at h; exact absurd rfl h
  | waitCommand => rw [step_command hp]; exact .inr ⟨nofun, rfl⟩
  | waitPayload => rw [step_payload hp]; exact .inr ⟨nofun, rfl⟩
  | waitChecksum => rw [step_checksum hp] at h; exact absurd rfl h

/-- **The buffer is what came since the marker**: a receiver fed `s` in the middle of a frame
holds the bytes of `s` from the marker on, and before that marker it was waiting for one. -/
theorem feed_since_marker (r₀ : Receiver) (h₀ : r₀.phase = .waitStart) (s : List UInt8)
    (h : (r₀.feed s).1.phase ≠ .waitStart) :
    ∃ pre, s = pre ++ (r₀.feed s).1.buf ∧ (r₀.feed pre).1.phase = .waitStart := by
  -- induction on the stream from its end: the last byte started the frame or joined it
  induction s using List.reverseRecOn with
  | nil => exact absurd h₀ h
  | append_singleton s b ih =>
    rw [feed_concat_fst] at h ⊢
    rcases step_buf h with ⟨hw, rfl, hbuf⟩ | ⟨hw, hbuf⟩
    · exact ⟨s, by rw [hbuf], hw⟩
    · obtain ⟨pre, hs, hpre⟩ := ih hw
      exact ⟨pre, by rw [hbuf, ← List.append_assoc, ← hs], hpre⟩

/-! ### Lengths -/

/-- The buffer's length read off its shape: one byte for the marker, one for each length byte
in, one for the slot, and the body so far. -/
theorem Inv.length_buf (h : r.Inv) :
    (r.phase ≠ .waitStart → r.buf.head? = some stx) ∧
    (r.phase = .waitLenLow → r.buf.length = 1) ∧
    (r.phase = .waitLenHigh → r.buf.length = 2) ∧
    (r.phase = .waitCommand → r.buf.length = 3) ∧
    (r.phase = .waitPayload → r.buf.length = 4 + r.pos ∧ r.pos < r.length) ∧
    (r.phase = .waitChecksum → r.buf.length = 4 + r.length) := by
  unfold Inv at h
  cases hp : r.phase <;> rw [hp] at h <;> simp only [ne_eq, reduceCtorEq, not_false_eq_true,
    forall_const, IsEmpty.forall_iff, and_true, true_and, not_true_eq_false]
  · simp [h]
  · obtain ⟨lo, hbuf, -⟩ := h
    simp [hbuf]
  · obtain ⟨lo, hi, hbuf, -⟩ := h
    simp [hbuf]
  · obtain ⟨lo, hi, slot, body, hbuf, -, hpos, hlt⟩ := h
    exact ⟨by simp [hbuf], by simp [hbuf, hpos]; omega, hlt⟩
  · obtain ⟨lo, hi, slot, body, hbuf, -, hbody⟩ := h
    exact ⟨by simp [hbuf], by simp [hbuf, hbody]; omega⟩

/-- Only the checksum byte hands a frame on: the buffer and that byte. -/
theorem step_eq_frame {f : List UInt8} (hf : (r.step b).2 = some (.frame f)) :
    r.phase = .waitChecksum ∧ f = r.buf ++ [b] := by
  cases hp : r.phase with
  | waitStart =>
    by_cases hb : b = stx
    · subst hb
      rw [step_start hp] at hf
      cases hf
    · rw [step_skip hp hb] at hf
      cases hf
  | waitLenLow => rw [step_lenLow hp] at hf; cases hf
  | waitLenHigh =>
    by_cases hfit : r.length + 256 * b.toNat - r.direction.bias ≤ r.capacity
    · rw [step_lenHigh_fits hp hfit] at hf
      cases hf
    · rw [step_lenHigh_over hp (by omega)] at hf
      cases hf
  | waitCommand => rw [step_command hp] at hf; cases hf
  | waitPayload => rw [step_payload hp] at hf; cases hf
  | waitChecksum =>
    rw [step_checksum hp] at hf
    cases hf
    exact ⟨rfl, rfl⟩

/-- A frame handed on is the buffer and the checksum byte: five bytes around the body. -/
theorem step_frame_length (h : r.Inv) {f : List UInt8} (hf : (r.step b).2 = some (.frame f)) :
    f.length = 5 + r.length := by
  obtain ⟨hp, rfl⟩ := step_eq_frame hf
  have := (h.length_buf).2.2.2.2.2 hp
  simp only [List.length_append, List.length_singleton]
  omega

/-- **Each byte keeps the bound**, given the frame shape. -/
theorem step_bounded (hi : r.Inv) (h : r.Bounded) : (r.step b).1.Bounded := by
  have hlen := hi.length_buf
  unfold Bounded at h
  cases hp : r.phase with
  | waitStart =>
    rw [hp] at h
    by_cases hb : b = stx
    · subst hb
      rw [step_start hp]
      exact trivial
    · rw [step_skip hp hb]
      simpa [Bounded, hp] using h
  | waitLenLow => rw [step_lenLow hp]; exact trivial
  | waitLenHigh =>
    by_cases hfit : r.length + 256 * b.toNat - r.direction.bias ≤ r.capacity
    · rw [step_lenHigh_fits hp hfit]
      exact hfit
    · -- an oversize length drops the frame: the buffer holds the three bytes read
      rw [step_lenHigh_over hp (by omega)]
      show (r.buf ++ [b]).length ≤ r.capacity + 5
      simp only [List.length_append, List.length_singleton, hlen.2.2.1 hp]
      omega
  | waitCommand =>
    rw [hp] at h
    rw [step_command hp]
    split_ifs <;> exact h
  | waitPayload =>
    rw [hp] at h
    rw [step_payload hp]
    split_ifs <;> exact h
  | waitChecksum =>
    -- the frame just handed on stays in the buffer until the next marker
    rw [hp] at h
    rw [step_checksum hp]
    show (r.buf ++ [b]).length ≤ r.capacity + 5
    simp only [List.length_append, List.length_singleton, hlen.2.2.2.2.2 hp]
    omega

/-- With the frame shape, the bound keeps the buffer within a whole frame of the largest body
in every phase. -/
theorem Inv.length_buf_le (hi : r.Inv) (hb : r.Bounded) : r.buf.length ≤ r.capacity + 5 := by
  obtain ⟨-, h1, h2, h3, h4, h5⟩ := hi.length_buf
  unfold Bounded at hb
  cases hp : r.phase <;> rw [hp] at hb
  · exact hb
  · rw [h1 hp]; omega
  · rw [h2 hp]; omega
  · rw [h3 hp]; omega
  · rw [(h4 hp).1]; have := (h4 hp).2; omega
  · rw [h5 hp]; omega

/-- A fed receiver has the frame shape and the bound. -/
theorem Fed.inv_bounded (h : r.Fed c d s) : r.Inv ∧ r.Bounded := by
  induction h with
  | new => exact ⟨inv_of_waitStart rfl, Nat.zero_le _⟩
  | step b _ ih => exact ⟨(step_inv ih.1).1, step_bounded ih.1 ih.2⟩
  | reset _ => exact ⟨inv_of_waitStart rfl, Nat.zero_le _⟩

theorem Fed.capacity (h : r.Fed c d s) : r.capacity = c := by
  rw [h.eq_feed, feed_capacity]
  rfl

/-- **The receive buffer holds the current frame.** Take a receiver of any capacity `c`, fed
any bytes and reset at any points, with `s` the bytes since its last reset. In every phase but
`WaitStart`, its buffer is exactly the bytes of `s` from the marker that started the frame, fed
while the receiver waited for one. Its length is 1 in `WaitLenLow`, 2 in `WaitLenHigh`, 3 in
`WaitCommand`, `4 + pos` in `WaitPayload` with `pos` short of the body length, and `4 + length`
in `WaitChecksum`; from `WaitCommand` on the body length is at most `c`. So the buffer never
holds more than `c + 5` bytes, and every frame it hands on is `5 + length` bytes long. -/
theorem receive_buffer_holds_current_frame (h : r.Fed c d s) :
    (r.phase ≠ .waitStart → r.buf.head? = some stx ∧
      ∃ pre, s = pre ++ r.buf ∧ ((Receiver.new c d).feed pre).1.phase = .waitStart) ∧
    (r.phase = .waitLenLow → r.buf.length = 1) ∧
    (r.phase = .waitLenHigh → r.buf.length = 2) ∧
    (r.phase = .waitCommand → r.buf.length = 3 ∧ r.length ≤ c) ∧
    (r.phase = .waitPayload → r.buf.length = 4 + r.pos ∧ r.pos < r.length ∧ r.length ≤ c) ∧
    (r.phase = .waitChecksum → r.buf.length = 4 + r.length ∧ r.length ≤ c) ∧
    r.buf.length ≤ c + 5 ∧
    ∀ b f, (r.step b).2 = some (.frame f) → f.length = 5 + r.length ∧ r.length ≤ c := by
  obtain ⟨hi, hb⟩ := h.inv_bounded
  have hsize := hi.length_buf_le hb
  obtain ⟨hhead, h1, h2, h3, h4, h5⟩ := hi.length_buf
  have hcap := h.capacity
  unfold Bounded at hb
  rw [hcap] at hb hsize
  refine ⟨fun hw => ⟨hhead hw, ?_⟩, h1, h2, fun hp => ⟨h3 hp, by rw [hp] at hb; exact hb⟩,
    fun hp => ⟨(h4 hp).1, (h4 hp).2, by rw [hp] at hb; exact hb⟩,
    fun hp => ⟨h5 hp, by rw [hp] at hb; exact hb⟩, hsize, fun b f hf => ?_⟩
  · -- the bytes since the marker, fed to the fresh receiver this one is
    have hs := feed_since_marker (Receiver.new c d) rfl s (by rwa [← h.eq_feed])
    rwa [← h.eq_feed] at hs
  · -- only the checksum byte completes a frame
    have hp := (step_eq_frame hf).1
    rw [hp] at hb
    exact ⟨step_frame_length hi hf, hb⟩

/-- Three bytes in, a request announcing a two-byte body waits for its slot byte, holding the
three bytes since its marker. -/
theorem receive_buffer_after_three_bytes :
    let r := ((((Receiver.new 512 .request).step stx).1.step 2).1.step 0).1
    r.Fed 512 .request ([] ++ [stx] ++ [2] ++ [0]) ∧ r.phase = .waitCommand ∧
      r.buf.length = 3 ∧ r.length ≤ 512 := by
  intro r
  have hfed : r.Fed 512 .request ([] ++ [stx] ++ [2] ++ [0]) := .step _ (.step _ (.step _ .new))
  have hp : r.phase = .waitCommand := by decide
  exact ⟨hfed, hp, ((receive_buffer_holds_current_frame hfed).2.2.2.1 hp)⟩

end Receiver

end StackLink
