import StackLink.Host.Connection

/-!
# How a wait for a reply ends, however the reads split it

A host that has sent a request reads until the reply receiver finds something: a complete
frame, which is the reply, or a length over a frame's payload, which ends the wait with an
oversize error. The connection decides how the reply bytes are cut into reads, and the last
read comes back with the failure that ends the stream, possibly together with bytes.

**Only the last read can change the outcome** (`StackLink.Client.await_eq_two_reads`). A wait
over any reads ends as a wait over two: all the bytes of the reads before the last at once, and
then the last. It rests on scanning stopping at the first thing found
(`StackLink.Client.scan_append_of_found`) and going on from where it left the receiver
otherwise (`StackLink.Client.scan_append_of_none`).

**The outcome, for reads that end the stream**
(`StackLink.reply_wait_ends_alike_unless_oversize_at_end`). Let the reply receiver scan all the
bytes the reads return.

* If it completes a frame first, the wait ends with that frame decoded as a reply; later
  bytes are never looked at.
* If it finds nothing, the wait ends with the end of the stream.
* If it finds an oversize length first, the wait ends with the oversize error, unless that
  length is completed only by the last read, the one that brings the end of the stream: the
  failure is then checked before the oversize length, and the wait ends with the end of the
  stream.

So the outcome does not depend on how the bytes are split, except in that one case: the same
three bytes read at once with the end of the stream, or first alone and then the end in a read
of its own, end differently (`StackLink.oversize_with_end_of_stream_reads_as_failure`).
-/

namespace StackLink

/-! ### The reads before the last, and the last -/

namespace Reads

/-- The bytes of every read but the last. -/
def leading : Reads → List UInt8
  | .more bs rest => bs ++ rest.leading
  | .last _ _ => []

/-- The bytes of the last read, the one that comes with the failure. -/
def final : Reads → List UInt8
  | .more _ rest => rest.final
  | .last bs _ => bs

/-- The failure that ends the reads. -/
def failure : Reads → ReadEnd
  | .more _ rest => rest.failure
  | .last _ f => f

theorem bytes_eq_leading_append_final (rs : Reads) : rs.bytes = rs.leading ++ rs.final := by
  induction rs with
  | more bs rest ih => simp [bytes, leading, final, ih]
  | last bs f => rfl

end Reads

namespace Client

variable {rx r : Receiver} {xs : List UInt8}

/-! ### Scanning across reads -/

/-- Scanning stops at the first thing found: bytes after it are never looked at. -/
theorem scan_append_of_found {e : Found} (h : (scan rx xs).2 = some e) (ys : List UInt8) :
    scan rx (xs ++ ys) = scan rx xs := by
  induction xs generalizing rx with
  | nil => simp [scan] at h
  | cons b bs ih =>
    -- the first byte either finds something, and the scan stops there, or moves the receiver
    rcases hs : rx.step b with ⟨r', _ | (f | n)⟩
    · simp only [List.cons_append, scan, hs] at h ⊢
      exact ih h
    · simp only [List.cons_append, scan, hs]
    · simp only [List.cons_append, scan, hs]

/-- Scanning on past bytes where nothing was found is scanning the rest from where those bytes
left the receiver. -/
theorem scan_append_of_none (h : scan rx xs = (r, none)) (ys : List UInt8) :
    scan rx (xs ++ ys) = scan r ys := by
  induction xs generalizing rx with
  | nil =>
    simp only [scan, Prod.mk.injEq] at h
    rw [← h.1]
    rfl
  | cons b bs ih =>
    rcases hs : rx.step b with ⟨r', _ | (f | n)⟩
    · simp only [List.cons_append, scan, hs] at h ⊢
      exact ih h
    · simp [scan, hs] at h
    · simp [scan, hs] at h

/-! ### Waiting -/

/-- **Only the last read can change the outcome.** A wait over any reads ends as the wait that
reads all the bytes of the reads before the last at once, and then the last read. -/
theorem await_eq_two_reads (cmd : Command) (rx : Receiver) (rs : Reads) :
    (await cmd rx rs).1 = (await cmd rx (.more rs.leading (.last rs.final rs.failure))).1 := by
  -- induction on the reads before the last, carried by the receiver they leave behind
  induction rs generalizing rx with
  | last bs f => simp [Reads.leading, Reads.final, Reads.failure, await, scan]
  | more bs rest ih =>
    rcases hs : scan rx bs with ⟨r', _ | (f | n)⟩
    · have hnext := scan_append_of_none hs rest.leading
      simp only [await, Reads.leading, Reads.final, Reads.failure, hs, hnext]
      rw [ih r']
      simp only [await]
    · have hframe := scan_append_of_found (e := .frame f) (by rw [hs]) rest.leading
      simp only [await, Reads.leading, Reads.final, Reads.failure, hs, hframe]
    · have hover := scan_append_of_found (e := .oversize n) (by rw [hs]) rest.leading
      simp only [await, Reads.leading, Reads.final, Reads.failure, hs, hover]

/-- Receiving is waiting for the reply frame, then decoding it. -/
theorem receive_fst (cmd : Command) (rs : Reads) :
    (receive cmd rs).1 = match (await cmd replyReceiver rs).1 with
      | .ok f => decodeReply cmd f
      | .error e => .error e := by
  unfold receive
  rcases await cmd replyReceiver rs with ⟨_ | f, rest⟩ <;> rfl

end Client

/-- **How a wait for a reply ends.** Take reads that end the stream, split however. If the
reply receiver, scanning all their bytes, completes a frame first, the outcome is that frame
decoded as a reply; if it finds nothing, the end of the stream. If it finds an oversize length
first, the outcome is the oversize error when the reads before the last already hold that
length, and the end of the stream when only the last read completes it. -/
theorem reply_wait_ends_alike_unless_oversize_at_end (cmd : Command) (rs : Reads)
    (hend : rs.failure = .eof) :
    (Client.receive cmd rs).1 =
      match (Client.scan Client.replyReceiver rs.bytes).2 with
      | some (.frame f) => Client.decodeReply cmd f
      | some (.oversize n) =>
        if (Client.scan Client.replyReceiver rs.leading).2 = none then
          .error (.receive cmd .eof)
        else .error (.oversize n)
      | none => .error (.receive cmd .eof) := by
  rw [Client.receive_fst, Client.await_eq_two_reads, Reads.bytes_eq_leading_append_final, hend]
  -- whether the reads before the last already find something decides which read ends the wait
  rcases hL : Client.scan Client.replyReceiver rs.leading with ⟨r, _ | e⟩
  · rw [Client.scan_append_of_none hL]
    rcases hF : Client.scan r rs.final with ⟨r', _ | (f | n)⟩ <;>
      simp [Client.await, hL, hF]
  · rw [Client.scan_append_of_found (by rw [hL]) rs.final, hL]
    cases e <;> simp [Client.await, hL]

/-- A ping's reply after noise, cut inside its length field, with the end of the stream in a
read of its own. -/
theorem ping_reply_split_after_noise :
    let rs : Reads :=
      .more (0x13 :: (wrap 0 1 []).take 2) (.more ((wrap 0 1 []).drop 2) (.last [] .eof))
    rs.failure = .eof ∧
      (Client.receive Command.ping rs).1 =
        match (Client.scan Client.replyReceiver rs.bytes).2 with
        | some (.frame f) => Client.decodeReply Command.ping f
        | some (.oversize n) =>
          if (Client.scan Client.replyReceiver rs.leading).2 = none then
            .error (.receive Command.ping .eof)
          else .error (.oversize n)
        | none => .error (.receive Command.ping .eof) :=
  ⟨rfl, reply_wait_ends_alike_unless_oversize_at_end Command.ping _ rfl⟩

/-- **An oversize length read with the end of the stream is not reported.** The three bytes of
a header whose length is over a frame's payload end a wait for a ping with the oversize error
when they come in a read of their own, and with the end of the stream when the read that
brings them also brings the end. -/
theorem oversize_with_end_of_stream_reads_as_failure :
    let split₁ : Reads := .more [0xA5, 0xFF, 0xFF] (.last [] .eof)
    let split₂ : Reads := .last [0xA5, 0xFF, 0xFF] .eof
    split₁.bytes = split₂.bytes ∧
      (Client.receive Command.ping split₁).1 = .error (.oversize 65534) ∧
      (Client.receive Command.ping split₂).1 = .error (.receive Command.ping .eof) :=
  ⟨rfl, rfl, rfl⟩

end StackLink
