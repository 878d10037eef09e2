import Mathlib
import StackLink.Wire.Receiver
import StackLink.Proofs.FrameCodec

/-!
# What a receiver cuts out of a stream

A receiver is a six-phase machine driven one byte at a time. This file says once
what one byte does in each phase (`StackLink.Receiver.step_start` and its
siblings) and derives two facts about whole streams from that.

**Encoded frames come out whole.** Between frames the receiver skips every byte
that is not the marker. A frame built by the encoder, with a body that fits the
capacity, is taken in byte by byte and handed on unchanged when its checksum
byte arrives, and the receiver is back to waiting for a marker
(`StackLink.Receiver.feed_wrap`). So a stream of encoded frames separated by
noise without the marker yields exactly those frames, in order, and nothing
else (`StackLink.Receiver.receiver_cuts_encoded_frames`).

**What comes out is a frame in shape.** Whatever the stream, the bytes a
receiver holds are the marker, the length bytes, the slot and the body read so
far, with the body length the length field less the bias
(`StackLink.Receiver.Inv`); every frame handed on is therefore
`stx :: lo :: hi :: slot :: body ++ [crc]` with `body` as long as the length
field says, less the bias and stopping at zero (`StackLink.CutFrame`). The
decoder can then reject a request frame only for its checksum. A reply frame
whose length field is zero is the exception: the receiver takes its body length
to be zero, where the decoder wants one byte more in the length field than in
the body, and reports a length mismatch.
-/

namespace StackLink

namespace Receiver

variable {r : Receiver} {b : UInt8}

/-! ### One byte, phase by phase -/

/-- Waiting for a marker, any other byte is skipped. -/
theorem step_skip (h : r.phase = .waitStart) (hb : b ≠ stx) : r.step b = (r, none) := by
  simp [step, h, hb]

/-- The marker starts a frame. -/
theorem step_start (h : r.phase = .waitStart) :
    r.step stx = ({ r with buf := [stx], phase := .waitLenLow }, none) := by
  simp [step, h]

/-- The low length byte. -/
theorem step_lenLow (h : r.phase = .waitLenLow) :
    r.step b =
      ({ r with buf := r.buf ++ [b], length := b.toNat, phase := .waitLenHigh }, none) := by
  simp [step, h]

/-- The high length byte, when the body it announces fits. -/
theorem step_lenHigh_fits (h : r.phase = .waitLenHigh)
    (hfit : r.length + 256 * b.toNat - r.direction.bias ≤ r.capacity) :
    r.step b = ({ r with buf := r.buf ++ [b], length := r.length + 256 * b.toNat - r.direction.bias,
                         phase := .waitCommand }, none) := by
  simp [step, h, Nat.not_lt.mpr hfit]

/-- The high length byte, when the body it announces is over capacity. -/
theorem step_lenHigh_over (h : r.phase = .waitLenHigh)
    (hover : r.capacity < r.length + 256 * b.toNat - r.direction.bias) :
    r.step b = ({ r with buf := r.buf ++ [b], length := r.length + 256 * b.toNat - r.direction.bias,
                         phase := .waitStart },
      some (.oversize (r.length + 256 * b.toNat - r.direction.bias))) := by
  simp [step, h, hover]

/-- The slot byte; an empty body goes straight to the checksum. -/
theorem step_command (h : r.phase = .waitCommand) :
    r.step b =
      ({ r with
          buf := r.buf ++ [b], command := b, pos := 0,
          phase := if r.length = 0 then .waitChecksum else .waitPayload }, none) := by
  simp [step, h]

/-- A body byte. -/
theorem step_payload (h : r.phase = .waitPayload) :
    r.step b = ({ r with buf := r.buf ++ [b], pos := r.pos + 1,
                         phase := if r.pos + 1 ≥ r.length then .waitChecksum else .waitPayload },
      none) := by
  simp [step, h]

/-- The checksum byte completes the frame, which is handed on unchecked. -/
theorem step_checksum (h : r.phase = .waitChecksum) :
    r.step b =
      ({ r with buf := r.buf ++ [b], phase := .waitStart }, some (.frame (r.buf ++ [b]))) := by
  simp [step, h]

@[simp]
theorem step_capacity (r : Receiver) (b : UInt8) : (r.step b).1.capacity = r.capacity := by
  cases h : r.phase <;> simp only [step, h] <;> (try split) <;> rfl

@[simp]
theorem step_direction (r : Receiver) (b : UInt8) : (r.step b).1.direction = r.direction := by
  cases h : r.phase <;> simp only [step, h] <;> (try split) <;> rfl

/-! ### Runs -/

@[simp]
theorem feed_nil (r : Receiver) : r.feed [] = (r, []) := rfl

theorem feed_cons_of_step {r' : Receiver} {e : Option Event} (h : r.step b = (r', e))
    (bs : List UInt8) : r.feed (b :: bs) = ((r'.feed bs).1, e.toList ++ (r'.feed bs).2) := by
  simp [feed, h]

/-- Feeding two pieces is feeding the first, then the second from where the first left off. -/
theorem feed_append (r : Receiver) (xs ys : List UInt8) :
    r.feed (xs ++ ys) =
      ((r.feed xs).1.feed ys |>.1, (r.feed xs).2 ++ ((r.feed xs).1.feed ys).2) := by
  induction xs generalizing r with
  | nil => rfl
  | cons x xs ih => simp [feed, ih]

@[simp]
theorem feed_direction (r : Receiver) (bs : List UInt8) :
    (r.feed bs).1.direction = r.direction := by
  induction bs generalizing r with
  | nil => rfl
  | cons x xs ih => simp [feed, ih]

@[simp]
theorem feed_capacity (r : Receiver) (bs : List UInt8) :
    (r.feed bs).1.capacity = r.capacity := by
  induction bs generalizing r with
  | nil => rfl
  | cons x xs ih => simp [feed, ih, step_capacity]

/-- **Noise between frames is skipped**: bytes without the marker leave a receiver that waits
for one as it is. -/
theorem feed_noise {g : List UInt8} (h : r.phase = .waitStart) (hg : stx ∉ g) :
    r.feed g = (r, []) := by
  induction g with
  | nil => rfl
  | cons x xs ih =>
    have hx : x ≠ stx := fun hx => hg (hx ▸ List.mem_cons_self ..)
    rw [feed_cons_of_step (step_skip h hx), ih (fun hm => hg (List.mem_cons_of_mem x hm))]
    rfl

/-- The body bytes after the slot: each is appended, and the last one moves on to the
checksum. -/
theorem feed_body {bs : List UInt8} (hp : r.phase = .waitPayload)
    (hlen : r.pos + bs.length = r.length) (hne : bs ≠ []) :
    r.feed bs = ({ r with buf := r.buf ++ bs, pos := r.length, phase := .waitChecksum }, []) := by
  induction bs generalizing r with
  | nil => exact absurd rfl hne
  | cons x rest ih =>
    rcases rest with _ | ⟨y, rest⟩
    · have hend : r.pos + 1 = r.length := by simpa using hlen
      simp [feed_cons_of_step (step_payload hp), hend]
    · have hmid : ¬ r.pos + 1 ≥ r.length := by simp at hlen; omega
      rw [feed_cons_of_step (step_payload hp), if_neg hmid,
        ih rfl (by simp at hlen ⊢; omega) (List.cons_ne_nil _ _)]
      simp

/-- **A frame up to its checksum**: from waiting for a marker, the header and a body that fits
the capacity hand on nothing, and leave the receiver waiting for the checksum with all of them
in its buffer. -/
theorem feed_unchecked {slot : UInt8} {body : List UInt8} (hst : r.phase = .waitStart)
    (hcap : body.length ≤ r.capacity) (hmax : body.length + r.direction.bias < 65536) :
    r.feed (stx :: UInt8.ofNat (body.length + r.direction.bias) ::
        UInt8.ofNat ((body.length + r.direction.bias) / 256) :: slot :: body) =
      ({ r with
          phase := .waitChecksum,
          buf := stx :: UInt8.ofNat (body.length + r.direction.bias) ::
            UInt8.ofNat ((body.length + r.direction.bias) / 256) :: slot :: body,
          length := body.length, pos := body.length, command := slot }, []) := by
  have hlen := lengthBytes_toNat hmax
  -- the two length bytes, less the bias, announce exactly the body
  have hbody : (UInt8.ofNat (body.length + r.direction.bias)).toNat +
      256 * (UInt8.ofNat ((body.length + r.direction.bias) / 256)).toNat - r.direction.bias =
      body.length := by omega
  rw [feed_cons_of_step (step_start hst), feed_cons_of_step (step_lenLow rfl),
    feed_cons_of_step (step_lenHigh_fits rfl (by dsimp only; omega)),
    feed_cons_of_step (step_command rfl)]
  simp only [hbody, Option.toList, List.nil_append]
  by_cases hb : body = []
  · subst hb
    rw [if_pos List.length_nil, feed_nil]
    rfl
  · rw [if_neg (mt List.length_eq_zero_iff.mp hb), feed_body rfl (by simp) hb]
    rfl

/-- **A whole frame in one go**: from waiting for a marker, the frame of a body that fits the
capacity is handed on exactly once, as it was built, and the receiver waits again. -/
theorem feed_wrap {slot : UInt8} {body : List UInt8} (hst : r.phase = .waitStart)
    (hcap : body.length ≤ r.capacity) (hmax : body.length + r.direction.bias < 65536) :
    r.feed (wrap slot (body.length + r.direction.bias) body) =
      ({ r with
          phase := .waitStart, buf := wrap slot (body.length + r.direction.bias) body,
          length := body.length, pos := body.length, command := slot },
        [.frame (wrap slot (body.length + r.direction.bias) body)]) := by
  rw [wrap_eq_framed, feed_append, feed_unchecked hst hcap hmax,
    feed_cons_of_step (step_checksum rfl), feed_nil]
  rfl

/-! ### Encoded frames among noise -/

/-- Frames built with a body that fits capacity `c`, each followed by noise without the marker,
come out one by one, from any receiver of capacity `c` waiting for a marker. -/
theorem feed_frames {α : Type} {c : Nat} {d : Direction} (wire noise : α → List UInt8)
    (sent : List α)
    (hsent : ∀ s ∈ sent, (∃ slot body, wire s = wrap slot (body.length + d.bias) body ∧
      body.length ≤ c ∧ body.length + d.bias < 65536) ∧ stx ∉ noise s) :
    ∀ r : Receiver, r.phase = .waitStart → r.capacity = c → r.direction = d →
      (r.feed (sent.flatMap fun s => wire s ++ noise s)).1.phase = .waitStart ∧
      (r.feed (sent.flatMap fun s => wire s ++ noise s)).2 = sent.map fun s => .frame (wire s) := by
  induction sent with
  | nil => intro r hst _ _; exact ⟨hst, rfl⟩
  | cons s more ih =>
    intro r hst hc hd
    obtain ⟨⟨slot, body, hw, hcap, hmax⟩, hnoise⟩ := hsent s (List.mem_cons_self ..)
    subst hc hd
    -- after the frame the receiver waits again, with the same capacity and direction
    obtain ⟨ih_phase, ih_events⟩ := ih (fun s' hs' => hsent s' (List.mem_cons_of_mem s hs'))
      { r with
          phase := .waitStart, buf := wire s, length := body.length, pos := body.length,
          command := slot } rfl rfl rfl
    rw [List.flatMap_cons, List.append_assoc, feed_append, hw, feed_wrap hst hcap hmax,
      feed_append, ← hw, feed_noise rfl hnoise]
    exact ⟨ih_phase, by simp [ih_events]⟩

/-- The same from a fresh receiver, after noise without the marker. -/
theorem feed_new_frames {α : Type} {c : Nat} {d : Direction} {g₀ : List UInt8} (hg₀ : stx ∉ g₀)
    (wire noise : α → List UInt8) (sent : List α)
    (hsent : ∀ s ∈ sent, (∃ slot body, wire s = wrap slot (body.length + d.bias) body ∧
      body.length ≤ c ∧ body.length + d.bias < 65536) ∧ stx ∉ noise s) :
    ((Receiver.new c d).feed (g₀ ++ sent.flatMap fun s => wire s ++ noise s)).1.phase =
        .waitStart ∧
      ((Receiver.new c d).feed (g₀ ++ sent.flatMap fun s => wire s ++ noise s)).2 =
        sent.map fun s => .frame (wire s) := by
  rw [feed_append, feed_noise rfl hg₀]
  exact feed_frames wire noise sent hsent _ rfl (by simp [Receiver.new]) rfl

/-- **The framing contract**: whatever the capacity, a stream of encoded requests whose
payloads fit it, with noise without the marker before, between and after them, makes a request
receiver hand on exactly the encoded frames, in order, with no oversize report, and leaves it
waiting for a marker; and the same for encoded replies whose extra bytes fit, fed to a reply
receiver. -/
theorem receiver_cuts_encoded_frames (c : Nat) (g₀ : List UInt8) (hg₀ : stx ∉ g₀) :
    (∀ sent : List (Frame × List UInt8 × List UInt8),
      (∀ s ∈ sent, s.1.encode = .ok s.2.1 ∧ s.1.payload.length ≤ min c maxPayload ∧ stx ∉ s.2.2) →
      ((Receiver.new c .request).feed (g₀ ++ sent.flatMap fun s => s.2.1 ++ s.2.2)).1.phase =
          .waitStart ∧
        ((Receiver.new c .request).feed (g₀ ++ sent.flatMap fun s => s.2.1 ++ s.2.2)).2 =
          sent.map fun s => .frame s.2.1) ∧
    (∀ sent : List (Reply × List UInt8 × List UInt8),
      (∀ s ∈ sent, s.1.encode = .ok s.2.1 ∧ s.1.extra.length ≤ c ∧
        1 + s.1.extra.length ≤ maxPayload ∧ stx ∉ s.2.2) →
      ((Receiver.new c .reply).feed (g₀ ++ sent.flatMap fun s => s.2.1 ++ s.2.2)).1.phase =
          .waitStart ∧
        ((Receiver.new c .reply).feed (g₀ ++ sent.flatMap fun s => s.2.1 ++ s.2.2)).2 =
          sent.map fun s => .frame s.2.1) := by
  constructor
  · intro sent hsent
    refine feed_new_frames hg₀ (fun s => s.2.1) (fun s => s.2.2) sent (fun s hs => ?_)
    obtain ⟨henc, hlen, hnoise⟩ := hsent s hs
    obtain ⟨-, hw⟩ := (Direction.encode_eq_ok_iff _).mp henc
    refine ⟨⟨s.1.command.code, s.1.payload, hw, ?_, ?_⟩, hnoise⟩
    · exact le_trans hlen (min_le_left _ _)
    · have h512 : s.1.payload.length ≤ maxPayload := le_trans hlen (min_le_right _ _)
      simp only [Direction.bias, maxPayload] at h512 ⊢
      omega
  · intro sent hsent
    refine feed_new_frames hg₀ (fun s => s.2.1) (fun s => s.2.2) sent (fun s hs => ?_)
    obtain ⟨henc, hlen, hmax, hnoise⟩ := hsent s hs
    obtain ⟨-, hw⟩ := (Direction.encode_eq_ok_iff _).mp henc
    refine ⟨⟨s.1.status.code, s.1.extra, hw, hlen, ?_⟩, hnoise⟩
    simp only [Direction.bias, maxPayload] at hmax ⊢
    omega

/-- The framing contract at a ping request carrying the marker as its payload, after a
noise byte, and at an `OK` reply. -/
theorem receiver_cuts_ping_and_ok :
    let reqs : List (Frame × List UInt8 × List UInt8) :=
      [(⟨Command.ping, [stx]⟩, wrap 0x20 1 [stx], [0x11])]
    let acks : List (Reply × List UInt8 × List UInt8) := [(⟨Status.ok, []⟩, wrap 0 1 [], [])]
    stx ∉ ([0x00] : List UInt8) ∧
      (∀ s ∈ reqs, s.1.encode = .ok s.2.1 ∧ s.1.payload.length ≤ min 1 maxPayload ∧ stx ∉ s.2.2) ∧
      ((Receiver.new 1 .request).feed ([0x00] ++ reqs.flatMap fun s => s.2.1 ++ s.2.2)).2 =
        reqs.map (fun s => .frame s.2.1) ∧
      (∀ s ∈ acks, s.1.encode = .ok s.2.1 ∧ s.1.extra.length ≤ 1 ∧
        1 + s.1.extra.length ≤ maxPayload ∧ stx ∉ s.2.2) ∧
      ((Receiver.new 1 .reply).feed ([0x00] ++ acks.flatMap fun s => s.2.1 ++ s.2.2)).2 =
        acks.map (fun s => .frame s.2.1) := by
  intro reqs acks
  have hg : stx ∉ ([0x00] : List UInt8) := by decide
  have hreqs : ∀ s ∈ reqs, s.1.encode = .ok s.2.1 ∧ s.1.payload.length ≤ min 1 maxPayload ∧
      stx ∉ s.2.2 := by decide +kernel
  have hacks : ∀ s ∈ acks, s.1.encode = .ok s.2.1 ∧ s.1.extra.length ≤ 1 ∧
      1 + s.1.extra.length ≤ maxPayload ∧ stx ∉ s.2.2 := by decide +kernel
  exact ⟨hg, hreqs, ((receiver_cuts_encoded_frames 1 [0x00] hg).1 reqs hreqs).2, hacks,
    ((receiver_cuts_encoded_frames 1 [0x00] hg).2 acks hacks).2⟩

/-! ### The bytes since the marker -/

/-- What a receiver holds of the frame in progress, phase by phase: the bytes since the
marker, and the body length they announce (the length field less the bias, stopping at zero).
While the body comes in, `pos` counts its bytes so far, short of that length. -/
def Inv (r : Receiver) : Prop :=
  match r.phase with
  | .waitStart => True
  | .waitLenLow => r.buf = [stx]
  | .waitLenHigh => ∃ lo, r.buf = [stx, lo] ∧ r.length = lo.toNat
  | .waitCommand => ∃ lo hi, r.buf = [stx, lo, hi] ∧
      r.length = lo.toNat + 256 * hi.toNat - r.direction.bias
  | .waitPayload => ∃ lo hi slot body, r.buf = stx :: lo :: hi :: slot :: body ∧
      r.length = lo.toNat + 256 * hi.toNat - r.direction.bias ∧ body.length = r.pos ∧
      r.pos < r.length
  | .waitChecksum => ∃ lo hi slot body, r.buf = stx :: lo :: hi :: slot :: body ∧
      r.length = lo.toNat + 256 * hi.toNat - r.direction.bias ∧ body.length = r.length

end Receiver

/-- A frame as a receiver in direction `d` cuts it out: the marker, two length bytes, the slot,
a body as long as the length field less the bias (stopping at zero), and one byte more. -/
def CutFrame (d : Direction) (f : List UInt8) : Prop :=
  ∃ lo hi slot body crc, f = (stx :: lo :: hi :: slot :: body) ++ [crc] ∧
    body.length = lo.toNat + 256 * hi.toNat - d.bias

namespace Receiver

variable {r : Receiver} {b : UInt8}

theorem inv_of_waitStart (h : r.phase = .waitStart) : r.Inv := by
  simp [Inv, h]

/-- **One byte keeps the invariant**, and a frame it completes is cut in shape. -/
theorem step_inv (h : r.Inv) :
    (r.step b).1.Inv ∧ ∀ f, (r.step b).2 = some (.frame f) → CutFrame r.direction f := by
  unfold Inv at h
  cases hp : r.phase with
  | waitStart =>
    by_cases hb : b = stx
    · subst hb
      rw [step_start hp]
      exact ⟨rfl, by simp⟩
    · rw [step_skip hp hb]
      exact ⟨inv_of_waitStart hp, by simp⟩
  | waitLenLow =>
    rw [hp] at h
    rw [step_lenLow hp]
    exact ⟨⟨b, by simp [h], rfl⟩, by simp⟩
  | waitLenHigh =>
    rw [hp] at h
    obtain ⟨lo, hbuf, hlen⟩ := h
    by_cases hfit : r.length + 256 * b.toNat - r.direction.bias ≤ r.capacity
    · rw [step_lenHigh_fits hp hfit]
      exact ⟨⟨lo, b, by simp [hbuf], by simp [hlen]⟩, by simp⟩
    · rw [step_lenHigh_over hp (by omega)]
      exact ⟨trivial, by simp⟩
  | waitCommand =>
    rw [hp] at h
    obtain ⟨lo, hi, hbuf, hlen⟩ := h
    rw [step_command hp]
    refine ⟨?_, by simp⟩
    by_cases hz : r.length = 0
    · rw [if_pos hz]
      exact ⟨lo, hi, b, [], by simp [hbuf], hlen, by simp [hz]⟩
    · rw [if_neg hz]
      exact ⟨lo, hi, b, [], by simp [hbuf], hlen, rfl, Nat.pos_of_ne_zero hz⟩
  | waitPayload =>
    rw [hp] at h
    obtain ⟨lo, hi, slot, body, hbuf, hlen, hpos, hlt⟩ := h
    rw [step_payload hp]
    refine ⟨?_, by simp⟩
    by_cases hend : r.pos + 1 ≥ r.length
    · rw [if_pos hend]
      exact ⟨lo, hi, slot, body ++ [b], by simp [hbuf], hlen, by simp; omega⟩
    · rw [if_neg hend]
      exact ⟨lo, hi, slot, body ++ [b], by simp [hbuf], hlen, by simp [hpos], by dsimp only; omega⟩
  | waitChecksum =>
    rw [hp] at h
    obtain ⟨lo, hi, slot, body, hbuf, hlen, hbody⟩ := h
    rw [step_checksum hp]
    refine ⟨trivial, fun f hf => ?_⟩
    simp only [Option.some.injEq, Event.frame.injEq] at hf
    subst hf
    exact ⟨lo, hi, slot, body, b, by simp [hbuf], by omega⟩

/-- **Every run keeps the invariant**, and every frame it hands on is cut in shape. -/
theorem feed_inv (h : r.Inv) (bs : List UInt8) :
    (r.feed bs).1.Inv ∧ ∀ f, .frame f ∈ (r.feed bs).2 → CutFrame r.direction f := by
  induction bs generalizing r with
  | nil => exact ⟨h, by simp⟩
  | cons x xs ih =>
    obtain ⟨hstep, hcut⟩ := step_inv h (b := x)
    obtain ⟨hrun, hcut'⟩ := ih hstep
    rw [feed_cons_of_step rfl]
    refine ⟨hrun, fun f hf => ?_⟩
    rcases List.mem_append.mp hf with hf | hf
    · exact hcut f (Option.mem_toList.mp hf)
    · simpa using hcut' f hf

end Receiver

/-! ### What the decoder makes of a cut frame -/

namespace CutFrame

variable {d : Direction} {f : List UInt8}

/-- Unless the length field is below the bias, a cut frame fails to decode only on its
checksum, and decodes exactly when the checksum is right. -/
theorem decode_checksum_only (h : CutFrame d f)
    (hb : ∀ n, Bytes.readLE16 f 1 = some n → d.bias ≤ n) :
    (∀ e, d.decode f = .error e → e = .checksum) ∧ (d.decode f).isOk = verifyCrc f := by
  obtain ⟨lo, hi, slot, body, crc, rfl, hlen⟩ := h
  have hbias := hb _ readLE16_framed
  rw [Direction.decode_framed, verifyCrc_framed, if_pos (by omega)]
  by_cases hc : crc = Crc.crc8 (lo :: hi :: slot :: body) <;> simp [hc, Except.isOk, Except.toBool]

/-- A cut reply frame whose length field is zero carries no status byte by its own count: the
decoder reports a length mismatch. -/
theorem decode_reply_zero_length (h : CutFrame .reply f) (h0 : Bytes.readLE16 f 1 = some 0) :
    Direction.reply.decode f = .error (.lengthMismatch 0 1) := by
  obtain ⟨lo, hi, slot, body, crc, rfl, hlen⟩ := h
  rw [readLE16_framed, Option.some.injEq] at h0
  have hbody : body = [] :=
    List.eq_nil_of_length_eq_zero (by simp only [Direction.bias] at hlen; omega)
  subst hbody
  rw [Direction.decode_framed, h0]
  simp [Direction.bias]

end CutFrame

/-- Receiver and decoder agree: every frame a request receiver hands on is refused by the
request decoder only for its checksum, so it decodes exactly when its checksum is right; and the
same holds of a reply receiver and the reply decoder, except for a frame whose length field is
zero, which the reply decoder refuses as a length mismatch. -/
theorem receiver_frames_fail_only_on_checksum (c : Nat) (bs : List UInt8) :
    (∀ f, .frame f ∈ ((Receiver.new c .request).feed bs).2 →
      (∀ e, Frame.decode f = .error e → e = .checksum) ∧ (Frame.decode f).isOk = verifyCrc f) ∧
    (∀ f, .frame f ∈ ((Receiver.new c .reply).feed bs).2 →
      (Bytes.readLE16 f 1 = some 0 → Reply.decode f = .error (.lengthMismatch 0 1)) ∧
      (Bytes.readLE16 f 1 ≠ some 0 →
        (∀ e, Reply.decode f = .error e → e = .checksum) ∧ (Reply.decode f).isOk = verifyCrc f)) := by
  refine ⟨fun f hf => ?_, fun f hf => ?_⟩
  · have hcut : CutFrame .request f := (Receiver.feed_inv (Receiver.inv_of_waitStart rfl) bs).2 f hf
    obtain ⟨herr, hok⟩ := hcut.decode_checksum_only (fun n _ => Nat.zero_le n)
    exact ⟨fun e he => herr e (Frame.decode_eq_error_iff.mp he), by rw [Frame.isOk_decode, hok]⟩
  · have hcut : CutFrame .reply f := (Receiver.feed_inv (Receiver.inv_of_waitStart rfl) bs).2 f hf
    refine ⟨fun h0 => Reply.decode_eq_error_iff.mpr (hcut.decode_reply_zero_length h0),
      fun h0 => ?_⟩
    -- a length field other than zero is at least the reply's bias of one
    have hb : ∀ n, Bytes.readLE16 f 1 = some n → Direction.reply.bias ≤ n := by
      intro n hn
      have : n ≠ 0 := fun hz => h0 (hz ▸ hn)
      simp only [Direction.bias]
      omega
    obtain ⟨herr, hok⟩ := hcut.decode_checksum_only hb
    exact ⟨fun e he => herr e (Reply.decode_eq_error_iff.mp he), by rw [Reply.isOk_decode, hok]⟩

/-- The agreement at a ping request, at an `OK` reply, and at the reply frame whose length
field is zero. -/
theorem receiver_frames_decode_at_ping_and_ok :
    (.frame (wrap 0x20 0 []) ∈ ((Receiver.new 0 .request).feed (wrap 0x20 0 [])).2 ∧
      (Frame.decode (wrap 0x20 0 [])).isOk = verifyCrc (wrap 0x20 0 [])) ∧
    (.frame (wrap 0 1 []) ∈ ((Receiver.new 0 .reply).feed (wrap 0 1 [])).2 ∧
      Bytes.readLE16 (wrap 0 1 []) 1 ≠ some 0 ∧
      (Reply.decode (wrap 0 1 [])).isOk = verifyCrc (wrap 0 1 [])) ∧
    (.frame [stx, 0, 0, 0, 0] ∈ ((Receiver.new 0 .reply).feed [stx, 0, 0, 0, 0]).2 ∧
      Bytes.readLE16 [stx, 0, 0, 0, 0] 1 = some 0 ∧
      Reply.decode [stx, 0, 0, 0, 0] = .error (.lengthMismatch 0 1)) := by
  have hping : .frame (wrap 0x20 0 []) ∈ ((Receiver.new 0 .request).feed (wrap 0x20 0 [])).2 := by
    decide +kernel
  have hok : .frame (wrap 0 1 []) ∈ ((Receiver.new 0 .reply).feed (wrap 0 1 [])).2 := by
    decide +kernel
  have hok_len : Bytes.readLE16 (wrap 0 1 []) 1 ≠ some 0 := by decide +kernel
  have hzero : .frame [stx, 0, 0, 0, 0] ∈ ((Receiver.new 0 .reply).feed [stx, 0, 0, 0, 0]).2 := by
    decide +kernel
  have hzero_len : Bytes.readLE16 [stx, 0, 0, 0, 0] 1 = some 0 := by decide +kernel
  exact ⟨⟨hping, ((receiver_frames_fail_only_on_checksum 0 _).1 _ hping).2⟩,
    ⟨hok, hok_len, (((receiver_frames_fail_only_on_checksum 0 _).2 _ hok).2 hok_len).2⟩,
    ⟨hzero, hzero_len, ((receiver_frames_fail_only_on_checksum 0 _).2 _ hzero).1 hzero_len⟩⟩

/-- A reply receiver hands on the five-byte frame whose length field is zero, its checksum is
right, and the reply decoder refuses it as a length mismatch. -/
theorem reply_receiver_passes_zero_length_frame :
    ((Receiver.new 0 .reply).feed [stx, 0, 0, 0, 0]).2 = [.frame [stx, 0, 0, 0, 0]] ∧
      verifyCrc [stx, 0, 0, 0, 0] = true ∧
      Reply.decode [stx, 0, 0, 0, 0] = .error (.lengthMismatch 0 1) := by
  decide +kernel

end StackLink
