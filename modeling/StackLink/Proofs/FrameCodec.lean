import Mathlib
import StackLink.Bytes
import StackLink.Wire.Frame

/-!
# Reading a frame back

A frame is its marker, two length bytes, the slot byte, the body and the
checksum. This file takes that layout apart once, as the list
`(stx :: lo :: hi :: slot :: body) ++ [crc]`, and states the checksum test and
the decoder on that shape (`StackLink.verifyCrc_framed`,
`StackLink.Direction.decode_framed`). What is said later about encoders,
receivers and the device's replies goes through these two facts:

* `StackLink.Direction.decode_wrap` – a frame built by `wrap` whose length field
  is the body plus the direction's bias is read back as its slot and body;
* `StackLink.Direction.encode_eq_ok_iff` – encoding succeeds **exactly** for
  bodies that leave room for the bias within `maxPayload`, and what it produces
  is `wrap`;
* `StackLink.Direction.decode_eq_ok_iff` – conversely, **the decoder accepts
  exactly the built frames**: a list that decodes is `wrap` of what it decodes
  to.

The length field is sixteen bits, so a length of `2^16` or more would not be
read back; every frame the encoder accepts is far below that.

Together they give the codec's round trip in both directions, for requests and
replies alike (`StackLink.frame_codec_round_trips`). The length field is what
tells the two apart: a request counts its body and a reply one byte more, so no
list decodes both ways.
-/

namespace StackLink

variable {slot crc lo hi : UInt8} {body : List UInt8} {n : Nat}

/-! ### The two length bytes -/

/-- The low and the high length byte give back any length below `2^16`. -/
theorem lengthBytes_toNat (hn : n < 65536) :
    (UInt8.ofNat n).toNat + 256 * (UInt8.ofNat (n / 256)).toNat = n := by
  simp only [UInt8.toNat_ofNat']
  omega

/-- Conversely, the two length bytes of a field are the field's own bytes. -/
theorem lengthBytes_of_fields (lo hi : UInt8) :
    UInt8.ofNat (lo.toNat + 256 * hi.toNat) = lo ∧
      UInt8.ofNat ((lo.toNat + 256 * hi.toNat) / 256) = hi := by
  have hlo := lo.toNat_lt
  have hhi := hi.toNat_lt
  constructor <;> apply UInt8.toNat_inj.mp <;> simp only [UInt8.toNat_ofNat'] <;> omega

/-! ### The layout of `wrap` -/

/-- A built frame in the shape the decoder takes apart. -/
theorem wrap_eq_framed (slot : UInt8) (n : Nat) (body : List UInt8) :
    wrap slot n body = (stx :: UInt8.ofNat n :: UInt8.ofNat (n / 256) :: slot :: body) ++
      [Crc.crc8 (UInt8.ofNat n :: UInt8.ofNat (n / 256) :: slot :: body)] := by
  simp [wrap]

/-- A frame is five bytes longer than its body. -/
@[simp]
theorem length_wrap (slot : UInt8) (n : Nat) (body : List UInt8) :
    (wrap slot n body).length = body.length + minFrameSize := by
  simp [wrap, minFrameSize, headerSize]

/-! ### The checksum test and the decoder on a framed list -/

/-- **The checksum test compares the last byte with the checksum of the bytes between the
marker and it.** -/
theorem verifyCrc_framed : verifyCrc ((stx :: lo :: hi :: slot :: body) ++ [crc]) =
    (crc == Crc.crc8 (lo :: hi :: slot :: body)) := by
  have hlen : ¬ ((stx :: lo :: hi :: slot :: body) ++ [crc]).length < minFrameSize := by
    simp [minFrameSize, headerSize]
  have hdrop : ((stx :: lo :: hi :: slot :: body) ++ [crc]).drop 1 =
      (lo :: hi :: slot :: body) ++ [crc] := rfl
  rw [verifyCrc, if_neg hlen, hdrop, List.getLast?_concat, List.dropLast_concat]
  simp

/-- Whatever its length field says, a built frame carries its own checksum. -/
@[simp]
theorem verifyCrc_wrap : verifyCrc (wrap slot n body) = true := by
  rw [wrap_eq_framed, verifyCrc_framed]
  simp

/-- **Decoding a framed list**: past the marker, the only checks left are the length field
against the body and the checksum, in that order. -/
theorem Direction.decode_framed (d : Direction) :
    d.decode ((stx :: lo :: hi :: slot :: body) ++ [crc]) =
      if lo.toNat + 256 * hi.toNat = body.length + d.bias then
        (if crc = Crc.crc8 (lo :: hi :: slot :: body) then .ok (slot, body) else .error .checksum)
      else .error (.lengthMismatch (lo.toNat + 256 * hi.toNat) (body.length + d.bias)) := by
  -- the decoder's pattern wants the checksum and the body as one non-empty tail
  obtain ⟨x, xs, hx⟩ : ∃ x xs, body ++ [crc] = x :: xs := List.exists_cons_of_ne_nil (by simp)
  have hcrc : verifyCrc ((stx :: lo :: hi :: slot :: body) ++ [crc]) =
      (crc == Crc.crc8 (lo :: hi :: slot :: body)) := verifyCrc_framed
  have hlen : ((stx :: lo :: hi :: slot :: body) ++ [crc]).length - minFrameSize = body.length := by
    simp [minFrameSize, headerSize]
  simp only [List.cons_append, hx] at hcrc hlen ⊢
  rw [Direction.decode]
  simp only [ne_eq, not_true, if_false, hlen, hcrc]
  rw [← hx, List.dropLast_concat]
  by_cases hd : lo.toNat + 256 * hi.toNat = body.length + d.bias <;>
    by_cases hc : crc = Crc.crc8 (lo :: hi :: slot :: body) <;> simp [hd, hc]

/-- **A built frame reads back**: when the length field is the body plus the bias, and fits
its sixteen bits, the decoder returns the slot and the body. -/
theorem Direction.decode_wrap (d : Direction) (hn : body.length + d.bias < 65536) :
    d.decode (wrap slot (body.length + d.bias) body) = .ok (slot, body) := by
  rw [wrap_eq_framed, Direction.decode_framed, lengthBytes_toNat hn]
  simp

/-- A list the decoder accepts is the frame built around what it decodes to, with the body
plus the bias in its length field. -/
theorem Direction.eq_wrap_of_decode (d : Direction) {f : List UInt8}
    (h : d.decode f = .ok (slot, body)) :
    body.length + d.bias < 65536 ∧ f = wrap slot (body.length + d.bias) body := by
  -- a list that decodes has five bytes or more, the last of them its checksum
  obtain ⟨m, lo, hi, s, b, c, rfl⟩ : ∃ m lo hi s b c, f = (m :: lo :: hi :: s :: b) ++ [c] := by
    rcases f with _ | ⟨m, _ | ⟨lo, _ | ⟨hi, _ | ⟨s, _ | ⟨x, xs⟩⟩⟩⟩⟩ <;> try (cases h)
    exact ⟨m, lo, hi, s, (x :: xs).dropLast, (x :: xs).getLast (List.cons_ne_nil _ _),
      by simp [List.dropLast_append_getLast]⟩
  obtain rfl : m = stx := by
    by_contra hm
    obtain ⟨x, xs, hx⟩ : ∃ x xs, b ++ [c] = x :: xs := List.exists_cons_of_ne_nil (by simp)
    simp only [List.cons_append, hx, Direction.decode, if_pos hm] at h
    cases h
  -- past the marker, the length field and the checksum are what `wrap` would write
  rw [Direction.decode_framed] at h
  split_ifs at h with hlen hcrc
  obtain ⟨rfl, rfl⟩ := Prod.mk.inj (Except.ok.inj h)
  obtain ⟨hlo, hhi⟩ := lengthBytes_of_fields lo hi
  have hbound : lo.toNat + 256 * hi.toNat < 65536 := by
    have := lo.toNat_lt
    have := hi.toNat_lt
    omega
  refine ⟨hlen ▸ hbound, ?_⟩
  rw [wrap_eq_framed, ← hlen, hlo, hhi, hcrc]

/-- **The decoder accepts exactly the built frames** whose length field fits its sixteen
bits. -/
theorem Direction.decode_eq_ok_iff (d : Direction) {f : List UInt8} :
    d.decode f = .ok (slot, body) ↔
      body.length + d.bias < 65536 ∧ f = wrap slot (body.length + d.bias) body := by
  constructor
  · exact d.eq_wrap_of_decode
  · rintro ⟨hn, rfl⟩
    exact d.decode_wrap hn

/-- **Encoding succeeds exactly for bodies that fit**, and builds the frame with the body plus
the bias in its length field. -/
theorem Direction.encode_eq_ok_iff (d : Direction) {f : List UInt8} :
    d.encode slot body = .ok f ↔
      body.length + d.bias ≤ maxPayload ∧ f = wrap slot (body.length + d.bias) body := by
  unfold Direction.encode
  by_cases h : body.length + d.bias > maxPayload
  · simp only [h, if_true, reduceCtorEq, false_iff, not_and]
    intro h'
    omega
  · simp only [h, if_false, Except.ok.injEq]
    constructor
    · intro hf
      exact ⟨by omega, hf.symm⟩
    · rintro ⟨-, hf⟩
      exact hf.symm

/-- Encoding fails, for the size it found, exactly when the body and the bias pass
`maxPayload`. -/
theorem Direction.encode_eq_error_iff (d : Direction) :
    d.encode slot body = .error (.payloadTooLarge (body.length + d.bias)) ↔
      maxPayload < body.length + d.bias := by
  unfold Direction.encode
  by_cases h : maxPayload < body.length + d.bias <;> simp [h]

/-- A body that fits is encoded as a frame five bytes longer, which carries its checksum and
decodes back to the slot and the body. -/
theorem Direction.encode_decodes (d : Direction) (s : UInt8)
    (h : body.length + d.bias ≤ maxPayload) :
    ∃ f, d.encode s body = .ok f ∧ f.length = body.length + minFrameSize ∧
      verifyCrc f = true ∧ d.decode f = .ok (s, body) := by
  refine ⟨wrap s (body.length + d.bias) body, d.encode_eq_ok_iff.mpr ⟨h, rfl⟩,
    length_wrap .., verifyCrc_wrap, d.decode_wrap ?_⟩
  simp only [maxPayload] at h
  omega

/-- A frame that decodes to a body that fits is what encoding that body gives. -/
theorem Direction.encode_of_decode (d : Direction) {f : List UInt8}
    (h : d.decode f = .ok (slot, body)) (hfit : body.length + d.bias ≤ maxPayload) :
    d.encode slot body = .ok f :=
  d.encode_eq_ok_iff.mpr ⟨hfit, (d.eq_wrap_of_decode h).2⟩

/-- A frame that decodes as a request does not decode as a reply: its length field counts its
body, where a reply's counts one byte more. -/
theorem Direction.not_decode_both {f : List UInt8} {s s' : UInt8} {b b' : List UInt8}
    (hreq : Direction.request.decode f = .ok (s, b)) :
    Direction.reply.decode f ≠ .ok (s', b') := by
  intro hrep
  obtain ⟨hn, hf⟩ := Direction.request.eq_wrap_of_decode hreq
  rw [hf, wrap_eq_framed, Direction.decode_framed, lengthBytes_toNat hn] at hrep
  simp [Direction.bias] at hrep

/-- The length field read as a 16-bit field at offset one. -/
theorem readLE16_framed :
    Bytes.readLE16 ((stx :: lo :: hi :: slot :: body) ++ [crc]) 1 =
      some (lo.toNat + 256 * hi.toNat) := by
  simp [Bytes.readLE16, Bytes.readLE, Bytes.leValue]

/-! ### Requests and replies -/

/-- A request fails to decode exactly when, and for the reason that, its frame does. -/
theorem Frame.decode_eq_error_iff {f : List UInt8} {e : FrameError} :
    Frame.decode f = .error e ↔ Direction.request.decode f = .error e := by
  unfold Frame.decode
  cases Direction.request.decode f <;> simp [Except.map]

theorem Frame.isOk_decode (f : List UInt8) :
    (Frame.decode f).isOk = (Direction.request.decode f).isOk := by
  unfold Frame.decode
  cases Direction.request.decode f <;> rfl

/-- A reply fails to decode exactly when, and for the reason that, its frame does. -/
theorem Reply.decode_eq_error_iff {f : List UInt8} {e : FrameError} :
    Reply.decode f = .error e ↔ Direction.reply.decode f = .error e := by
  unfold Reply.decode
  cases Direction.reply.decode f <;> simp [Except.map]

theorem Reply.isOk_decode (f : List UInt8) :
    (Reply.decode f).isOk = (Direction.reply.decode f).isOk := by
  unfold Reply.decode
  cases Direction.reply.decode f <;> rfl

/-- A request decodes exactly when its frame decodes to its command and payload. -/
theorem Frame.decode_eq_ok_iff {f : List UInt8} {fr : Frame} :
    Frame.decode f = .ok fr ↔ Direction.request.decode f = .ok (fr.command.code, fr.payload) := by
  unfold Frame.decode
  cases Direction.request.decode f with
  | error e => simp [Except.map]
  | ok p =>
    obtain ⟨c, q⟩ := p
    obtain ⟨⟨c'⟩, q'⟩ := fr
    simp [Except.map]

/-- A reply decodes exactly when its frame decodes to its status and extra bytes. -/
theorem Reply.decode_eq_ok_iff {f : List UInt8} {r : Reply} :
    Reply.decode f = .ok r ↔ Direction.reply.decode f = .ok (r.status.code, r.extra) := by
  unfold Reply.decode
  cases Direction.reply.decode f with
  | error e => simp [Except.map]
  | ok p =>
    obtain ⟨c, q⟩ := p
    obtain ⟨⟨c'⟩, q'⟩ := r
    simp [Except.map]

/-! ### Writing into a reused buffer -/

/-- Appended to nothing, a frame is the one `wrap` builds: the checksum covers every byte after
the marker. -/
theorem appendFrame_nil (slot : UInt8) (n : Nat) (body : List UInt8) :
    appendFrame [] slot n body = wrap slot n body := by
  simp [appendFrame, wrap]

/-- A reply written into a reused buffer is its encoding, whatever the buffer held. -/
theorem Reply.appendTo_eq_encode (dst : List UInt8) (r : Reply) : r.appendTo dst = r.encode := by
  by_cases h : maxPayload < r.extra.length + 1 <;>
    simp [Reply.appendTo, appendFrame_nil, Reply.encode, Direction.encode, Direction.bias, h,
      Nat.add_comm 1]

/-! ### The round trip -/

/-- **The frame codec round trip.** A request is encoded exactly when its payload has at most
`maxPayload` bytes, and otherwise fails with the payload's size. Its frame is five bytes longer
than the payload, passes the checksum test and decodes to the request. Every frame that decodes
to a request whose payload fits is that request's encoding. The same holds of replies, whose
length field also counts the status byte. A reply written into a reused buffer is its encoding
whatever the buffer held, and no frame decodes both as a request and as a reply. -/
theorem frame_codec_round_trips :
    (∀ fr : Frame,
      (fr.encode = .error (.payloadTooLarge fr.payload.length) ↔
        maxPayload < fr.payload.length) ∧
      (fr.payload.length ≤ maxPayload → ∃ f, fr.encode = .ok f ∧
        f.length = fr.payload.length + minFrameSize ∧ verifyCrc f = true ∧
        Frame.decode f = .ok fr)) ∧
    (∀ f fr, Frame.decode f = .ok fr → fr.payload.length ≤ maxPayload → fr.encode = .ok f) ∧
    (∀ r : Reply,
      (r.encode = .error (.payloadTooLarge (r.extra.length + 1)) ↔
        maxPayload < r.extra.length + 1) ∧
      (r.extra.length + 1 ≤ maxPayload → ∃ f, r.encode = .ok f ∧
        f.length = r.extra.length + minFrameSize ∧ verifyCrc f = true ∧
        Reply.decode f = .ok r)) ∧
    (∀ f r, Reply.decode f = .ok r → r.extra.length + 1 ≤ maxPayload → r.encode = .ok f) ∧
    (∀ dst r, Reply.appendTo dst r = r.encode) ∧
    (∀ f, ¬ ((Frame.decode f).isOk ∧ (Reply.decode f).isOk)) := by
  refine ⟨fun fr => ⟨Direction.request.encode_eq_error_iff, fun h => ?_⟩,
    fun f fr hd hfit => Direction.request.encode_of_decode (Frame.decode_eq_ok_iff.mp hd) hfit,
    fun r => ⟨Direction.reply.encode_eq_error_iff, fun h => ?_⟩,
    fun f r hd hfit => Direction.reply.encode_of_decode (Reply.decode_eq_ok_iff.mp hd) hfit,
    Reply.appendTo_eq_encode, fun f ⟨hreq, hrep⟩ => ?_⟩
  · obtain ⟨g, henc, hlen, hcrc, hdec⟩ := Direction.request.encode_decodes fr.command.code h
    exact ⟨g, henc, hlen, hcrc, Frame.decode_eq_ok_iff.mpr hdec⟩
  · obtain ⟨g, henc, hlen, hcrc, hdec⟩ := Direction.reply.encode_decodes r.status.code h
    exact ⟨g, henc, hlen, hcrc, Reply.decode_eq_ok_iff.mpr hdec⟩
  · -- both decoders accept the frame only if its length field is the body with both biases
    cases hfr : Frame.decode f with
    | error e => simp [hfr, Except.isOk, Except.toBool] at hreq
    | ok fr =>
      cases hr : Reply.decode f with
      | error e => simp [hr, Except.isOk, Except.toBool] at hrep
      | ok r =>
        exact Direction.not_decode_both (Frame.decode_eq_ok_iff.mp hfr)
          (Reply.decode_eq_ok_iff.mp hr)

end StackLink
