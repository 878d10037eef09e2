import Mathlib
import StackLink.Host.World
import StackLink.Proofs.Sessions
import StackLink.Proofs.Readback
import StackLink.Proofs.ReplyWait

/-!
# Requests over a serial line to a simulated device

A host reaches a simulated device by opening its serial line, and sends each request as one
frame: the device's worker is fed the frame's bytes, the link answers it, and the host reads the
reply bytes back at most 256 bytes at a time, until a read finds the pipe empty and runs into
the deadline. This file says what one request does when the device is ready for it.

**One request, one answer** (`StackLink.World.request_simulator`). The device's receiver waits
for a frame, takes requests, and has room for the largest payload, and the handler of system
calls, if any, never changes the link's shape. Then a request whose payload fits a frame is
answered by the link as if it got the frame whole. The host reads that reply, and an aborted
call leaves the host waiting for the deadline. The line keeps the device as the answer left
it, and nothing else in the world changes. It rests on four facts:

* the frame is cut by the receiver at its last byte, with nothing answered before it
  (`StackLink.Link.write_wrap`);
* the link answers a frame with a reply frame, or aborts (`StackLink.Link.handleFrame_reply`);
* the host's reads of a pipe holding one reply frame find that frame
  (`StackLink.Client.receive_ofPending_replyFrame`): however the pipe cuts the frame, only
  the last read can change what a wait finds, and here the last read brings nothing;
* opening the line connects to the device as it is, when the server does not reset it on
  connection (`StackLink.World.dial_line`, `StackLink.World.connect_of_keep`).
-/

namespace StackLink

/-! ### A pipe's reads -/

theorem chunksOf_go_flatten {n : Nat} (hn : 0 < n) :
    ∀ k (bs : List UInt8), bs.length ≤ k → (chunksOf.go n k bs).flatten = bs := by
  intro k
  induction k with
  | zero =>
    intro bs hbs
    rw [List.eq_nil_of_length_eq_zero (Nat.le_zero.mp hbs)]
    rfl
  | succ k ih =>
    intro bs hbs
    rcases bs with _ | ⟨b, bs⟩
    · rfl
    · have hrest : ((b :: bs).drop n).length ≤ k := by
        simp only [List.length_drop, List.length_cons] at hbs ⊢
        omega
      simp only [chunksOf.go, List.flatten_cons, ih _ hrest, List.take_append_drop]

/-- The pieces a pipe is read in make up what it holds. -/
theorem chunksOf_flatten {n : Nat} (hn : 0 < n) (bs : List UInt8) : (chunksOf n bs).flatten = bs :=
  chunksOf_go_flatten hn _ bs le_rfl

namespace Reads

/-- Every read of a pipe but the last brings what it holds. -/
theorem leading_ofPending {n : Nat} (hn : 0 < n) (bs : List UInt8) (idle : ReadEnd) :
    (ofPending n bs idle).leading = bs := by
  have key : ∀ cs : List (List UInt8),
      (cs.foldr Reads.more (Reads.last [] idle)).leading = cs.flatten := by
    intro cs
    induction cs with
    | nil => rfl
    | cons c cs ih => simp [leading, ih]
  rw [ofPending, key, chunksOf_flatten hn]

/-- The last read of a pipe finds it empty. -/
theorem final_ofPending (n : Nat) (bs : List UInt8) (idle : ReadEnd) :
    (ofPending n bs idle).final = [] := by
  rw [ofPending]
  induction chunksOf n bs with
  | nil => rfl
  | cons c cs ih => exact ih

end Reads

/-! ### Reading one reply frame -/

namespace Client

variable {rx r : Receiver} {xs : List UInt8}

/-- Bytes that a receiver takes without completing anything are scanned without a find. -/
theorem scan_of_feed_nil (h : rx.feed xs = (r, [])) : scan rx xs = (r, none) := by
  induction xs generalizing rx with
  | nil => simpa [scan] using h
  | cons b bs ih =>
    rcases hs : rx.step b with ⟨r', _ | e⟩
    · rw [Receiver.feed_cons_of_step hs] at h
      simp only [Option.toList_none, List.nil_append] at h
      simp only [scan, hs]
      exact ih (Prod.ext (congrArg Prod.fst h) (congrArg Prod.snd h))
    · rw [Receiver.feed_cons_of_step hs] at h
      simp at h

theorem scan_checksum {b : UInt8} (h : r.phase = .waitChecksum) :
    scan r [b] =
      ({ r with buf := r.buf ++ [b], phase := .waitStart }, some (.frame (r.buf ++ [b]))) := by
  simp [scan, Receiver.step_checksum h]

/-- A receiver that waits for a frame and has room for it finds the whole frame. -/
theorem scan_wrap {slot : UInt8} {body : List UInt8} (hst : rx.phase = .waitStart)
    (hcap : body.length ≤ rx.capacity) (hmax : body.length + rx.direction.bias < 65536) :
    (scan rx (wrap slot (body.length + rx.direction.bias) body)).2 =
      some (.frame (wrap slot (body.length + rx.direction.bias) body)) := by
  rw [wrap_eq_framed,
    scan_append_of_none (scan_of_feed_nil (Receiver.feed_unchecked hst hcap hmax)),
    scan_checksum rfl]

/-- The host's reply receiver finds every reply frame whole. -/
theorem scan_replyFrame (s : Status) (extra : List UInt8) :
    (scan replyReceiver (replyFrame s extra)).2 = some (.frame (replyFrame s extra)) := by
  rw [replyFrame_eq]
  split
  · exact scan_wrap rfl (by simp only [replyReceiver, Receiver.new]; omega)
      (by simp only [replyReceiver, Receiver.new, Direction.bias, maxPayload] at *; omega)
  · exact @scan_wrap replyReceiver _ [] rfl (by simp)
      (by simp [replyReceiver, Receiver.new, Direction.bias])

/-- **A pipe holding one reply frame is read as that reply**, however its reads cut it. -/
theorem receive_ofPending_replyFrame (cmd : Command) {n : Nat} (hn : 0 < n) (s : Status)
    (extra : List UInt8) (idle : ReadEnd) :
    (receive cmd (Reads.ofPending n (replyFrame s extra) idle)).1 =
      decodeReply cmd (replyFrame s extra) := by
  -- the reads before the last bring the frame, and the last brings nothing
  rw [receive_fst, await_eq_two_reads, Reads.leading_ofPending hn, Reads.final_ofPending]
  have h := scan_replyFrame s extra
  rcases hsc : scan replyReceiver (replyFrame s extra) with ⟨r, e⟩
  rw [hsc] at h
  cases h
  simp [await, hsc]

end Client

/-! ### The link takes one frame -/

/-- What a link writes after answering one frame: the reply, or nothing and the abort. -/
def Answer.output : Answer → Output
  | .reply f => { replies := [f] }
  | .abort r => { abort := some r }

namespace Link

variable {sys : Option (SysHandler Id)}

theorem feed_of_quiet (l : Link) {b : UInt8} {r : Receiver} (h : l.rx.step b = (r, none)) :
    Id.run (l.feed sys b) = ({ l with rx := r }, none) := by
  unfold feed
  rw [h]
  rfl

/-- Bytes that complete nothing only move the receiver. -/
theorem write_append_of_quiet (l : Link) {xs : List UInt8} {r : Receiver}
    (h : l.rx.feed xs = (r, [])) (ys : List UInt8) :
    Id.run (l.write sys (xs ++ ys)) = Id.run ({ l with rx := r }.write sys ys) := by
  induction xs generalizing l with
  | nil =>
    simp only [Receiver.feed_nil, Prod.mk.injEq] at h
    rw [← h.1]
    rfl
  | cons b bs ih =>
    rcases hs : l.rx.step b with ⟨r', _ | e⟩
    · rw [Receiver.feed_cons_of_step hs] at h
      simp only [Option.toList_none, List.nil_append] at h
      have hrest := ih { l with rx := r' } (Prod.ext (congrArg Prod.fst h) (congrArg Prod.snd h))
      simp only [List.cons_append, write, Id.run_bind, feed_of_quiet l hs]
      exact hrest
    · rw [Receiver.feed_cons_of_step hs] at h
      simp at h

theorem write_last_frame (l : Link) {b : UInt8} {r : Receiver} {g : List UInt8}
    (h : l.rx.step b = (r, some (.frame g))) :
    Id.run (l.write sys [b]) =
      ((Id.run ({ l with rx := r }.handleFrame sys g)).1,
        (Id.run ({ l with rx := r }.handleFrame sys g)).2.output) := by
  simp only [write, feed, h, Id.run_bind]
  generalize Id.run ({ l with rx := r }.handleFrame sys g) = a
  obtain ⟨l', _ | r'⟩ := a <;> rfl

/-- **A link that waits for a request takes a whole frame as one**: written byte by byte, the
frame is answered once, at its last byte, by the link whose receiver has taken it. -/
theorem write_wrap (l : Link) {slot : UInt8} {body : List UInt8} (hst : l.rx.phase = .waitStart)
    (hdir : l.rx.direction = .request) (hcap : body.length ≤ l.rx.capacity)
    (hmax : body.length < 65536) :
    Id.run (l.write sys (wrap slot body.length body)) =
      ((Id.run ({ l with rx := (l.rx.feed (wrap slot body.length body)).1 }.handleFrame sys
          (wrap slot body.length body))).1,
        (Id.run ({ l with rx := (l.rx.feed (wrap slot body.length body)).1 }.handleFrame sys
          (wrap slot body.length body))).2.output) := by
  have hbias : body.length + l.rx.direction.bias = body.length := by rw [hdir]; rfl
  have hunchecked := @Receiver.feed_unchecked l.rx slot body hst hcap (by rw [hbias]; exact hmax)
  rw [hbias] at hunchecked
  have hframe := @Receiver.feed_wrap l.rx slot body hst hcap (by rw [hbias]; exact hmax)
  rw [hbias] at hframe
  rw [hframe]
  -- every byte but the checksum is taken quietly; the checksum completes the frame
  conv_lhs => rw [wrap_eq_framed, write_append_of_quiet l hunchecked,
    write_last_frame _ (Receiver.step_checksum rfl)]
  simp only [← wrap_eq_framed]

/-- A link answers a frame with a reply frame, when it does not abort. -/
theorem handleFrame_reply (hsys : ∀ h, sys = some h → h.Confined) (l : Link) (g : List UInt8)
    {f : List UInt8} (h : (Id.run (l.handleFrame sys g)).2 = .reply f) :
    ∃ s extra, f = replyFrame s extra := by
  have hexec : ∀ P, (Id.run (l.exec sys P)).2 = .reply f →
      ∃ s extra, f = replyFrame s extra := by
    intro P hP
    rcases exec_reply hsys l P (Prod.ext rfl hP) with rfl | ⟨s, -, rfl⟩
    · exact ⟨_, _, rfl⟩
    · exact ⟨_, _, rfl⟩
  unfold handleFrame at h
  cases hd : Frame.decode g with
  | error e =>
    rw [hd] at h
    exact ⟨_, _, (Answer.reply.inj h).symm⟩
  | ok r =>
    rw [hd] at h
    dsimp only at h
    -- an upload, then the queries; every branch but the upload is a reply frame at once
    split at h
    · exact hexec _ h
    split at h
    · exact ⟨_, _, (Answer.reply.inj h).symm⟩
    split at h
    · exact ⟨_, _, (Answer.reply.inj h).symm⟩
    split at h
    · exact ⟨_, _, (Answer.reply.inj h).symm⟩
    split at h
    · split at h <;> exact ⟨_, _, (Answer.reply.inj h).symm⟩
    split at h
    · split at h
      · obtain ⟨s, extra, hq⟩ := queryWord_eq_replyFrame l _
        exact ⟨s, extra, (Answer.reply.inj h).symm.trans hq⟩
      · exact ⟨_, _, (Answer.reply.inj h).symm⟩
    · exact ⟨_, _, (Answer.reply.inj h).symm⟩

end Link

/-- A running worker feeds its link, and reports an abort as a panic. -/
theorem Worker.feed_of_running {w : Worker} {sys : Option (SysHandler Id)}
    (hrun : w.stopped = false) (bytes : List UInt8) :
    (w.feed sys bytes : Id (Worker × Delivery)) =
      ({ w with link := (Id.run (w.link.write sys bytes)).1 },
        ⟨(Id.run (w.link.write sys bytes)).2.replies,
          (Id.run (w.link.write sys bytes)).2.abort.map .panicked⟩) := by
  simp only [Worker.feed, hrun, Bool.false_eq_true, if_false]
  rfl

/-! ### The world around a line -/

/-- Replacing the values at one key changes what that key finds, and nothing else. -/
theorem lookup_map_replace {β : Type} (xs : List (String × β)) (p q : String) (v : β) :
    (xs.map fun (k, old) => (k, if k = p then v else old)).lookup q =
      if q = p then (xs.lookup q).map fun _ => v else xs.lookup q := by
  induction xs with
  | nil => simp
  | cons e es ih =>
    obtain ⟨k, old⟩ := e
    by_cases hqk : q = k
    · subst hqk
      by_cases hqp : q = p <;> simp [List.lookup, hqp]
    · have hne : (q == k) = false := by simpa using hqk
      simp only [List.map_cons, List.lookup, hne]
      exact ih

namespace World

/-- Replacing a line changes what that path holds, and nothing else. -/
theorem lookup_setLine (w : World) (p q : String) (l : Line) :
    (w.setLine p l).lines.lookup q =
      if q = p then (w.lines.lookup q).map fun _ => l else w.lines.lookup q :=
  lookup_map_replace w.lines p q l

/-- A device whose server does not reset on connection is connected to as it is. -/
theorem connect_of_keep {srv : Server} {sys : Option (SysHandler Id)}
    (h : srv.options.resetOnConnect = false) :
    connect (.simulator srv sys) = .simulator srv sys := by
  simp [connect, h]

/-- A target that is a path reaches the serial line at that path, and connects to it. -/
theorem dial_line {w : World} {port : String} {l : Line}
    (htcp : port.startsWith "tcp://" = false) (hser : port.startsWith "serial://" = false)
    (hl : w.lines.lookup (Path.abs w.cwd port) = some l) :
    w.dial port = (w.setLine (Path.abs w.cwd port) (connect l), .ok ⟨Path.abs w.cwd port⟩) := by
  simp [dial, htcp, hser, hl]

/-- A payload over a frame's limit is refused before anything is sent. -/
theorem request_of_long {w : World} {c : Conn} {cmd : Command} {payload : List UInt8}
    (h : maxPayload < payload.length) :
    w.request c cmd payload = (w, .error (.request (.payloadTooLarge payload.length))) := by
  simp [request, Frame.encode, Direction.encode, Direction.bias, h]

/-- **One request, one answer.** Over a line to a device whose receiver waits for a request
and has room for the largest payload, and whose handler of system calls, if any, is confined,
a request that fits a frame is answered by the link as if it got the frame whole. The host
reads the reply, or waits for the deadline when a call aborts, and the line keeps the device
as the answer left it. -/
theorem request_simulator {w : World} {line : String} {srv : Server}
    {sys : Option (SysHandler Id)} (hline : w.lines.lookup line = some (.simulator srv sys))
    (hsys : ∀ h, sys = some h → h.Confined) (hoff : srv.options.resetOnConnect = false)
    (hrun : srv.worker.stopped = false) (hst : srv.worker.link.rx.phase = .waitStart)
    (hdir : srv.worker.link.rx.direction = .request)
    (hcap : maxPayload ≤ srv.worker.link.rx.capacity) (cmd : Command) {payload : List UInt8}
    (hfit : payload.length ≤ maxPayload) :
    let g := wrap cmd.code payload.length payload
    let a := Id.run ({ srv.worker.link with rx := (srv.worker.link.rx.feed g).1 }.handleFrame sys g)
    w.request ⟨line⟩ cmd payload =
      (w.setLine line (.simulator { srv with worker := { srv.worker with link := a.1 } } sys),
        match a.2 with
        | .reply f => Client.decodeReply cmd f
        | .abort _ => .error (.deadline cmd)) := by
  intro g a
  have henc : (Frame.mk cmd payload).encode = .ok g := by
    simp [Frame.encode, Direction.encode, Direction.bias, g, Nat.not_lt.mpr hfit]
  have hwrite := @Link.write_wrap sys srv.worker.link cmd.code payload hst hdir
    (show payload.length ≤ srv.worker.link.rx.capacity by omega)
    (by simp only [maxPayload] at hfit; omega)
  have hreply := fun f => Link.handleFrame_reply (f := f) hsys
    { srv.worker.link with rx := (srv.worker.link.rx.feed g).1 } g
  unfold request
  rw [henc, hline]
  dsimp only [a, g] at hreply ⊢
  rw [Worker.feed_of_running hrun, hwrite]
  generalize Id.run (Link.handleFrame sys
    { srv.worker.link with
      rx := (srv.worker.link.rx.feed (wrap cmd.code payload.length payload)).1 }
    (wrap cmd.code payload.length payload)) = A at hreply ⊢
  obtain ⟨l', _ | r⟩ := A
  · -- one reply frame is written, and the host reads it whole
    obtain ⟨s, extra, rfl⟩ := hreply _ rfl
    simp only [Answer.output, Option.map_none, Option.isSome_none, Bool.false_eq_true, if_false,
      List.flatten_cons, List.flatten_nil, List.append_nil]
    rw [Client.receive_ofPending_replyFrame cmd (by decide)]
  · -- an aborted call writes nothing, and the host waits in vain
    simp only [Answer.output, Option.map_some, Option.isSome_some, if_true, connect, hoff,
      Bool.false_eq_true, if_false]
    rfl

end World

end StackLink
