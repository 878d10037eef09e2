import Mathlib
import StackLink.Proofs.Reception
import StackLink.Proofs.Upload
import StackLink.Proofs.Runs

/-!
# Every event answered once

A link reads bytes through its receiver, and answers each event the receiver reports: a
complete frame, or a length over the buffer's capacity. This file shows that, with no system
call handler or one that never aborts, it answers each event **exactly once, in order, and
before it takes the next byte**, and that every answer is a frame a host can read
(`StackLink.Link.feed_answers_of_neverAborts` for one byte,
`StackLink.Link.write_answers_of_neverAborts` for a stream; `StackLink.Link.feed_answers` and
`StackLink.Link.write_answers` with no handler).

What an event is owed is `StackLink.Answers`: a frame of at most `maxFrameSize` bytes that
reads back as a reply; `BUFFER_FULL` for an oversize length; `INVALID_FRAME` for a frame that
does not decode; `ERROR` for a request whose command is not served.

Two facts carry it. Every answer is some `replyFrame`, and a reply frame is short and
reads back (`StackLink.decode_replyFrame`), because a payload too long for a frame is
replaced by a bare `BUFFER_FULL`. And no branch of a request's handling ends without one:
an upload ends in a reply whatever its run did, since with no handler, or one that never
aborts, a run is never aborted (`StackLink.Link.exec_repliesFrom`).
-/

namespace StackLink

/-! ### Reply frames -/

/-- A reply frame is its status and payload framed, or a bare `BUFFER_FULL` when they would
not fit. -/
theorem replyFrame_eq (s : Status) (extra : List UInt8) :
    replyFrame s extra =
      if extra.length + 1 ≤ maxPayload then wrap s.code (extra.length + 1) extra
      else wrap Status.bufferFull.code 1 [] := by
  by_cases h : extra.length + 1 ≤ maxPayload
  · have henc : (Reply.mk s extra).encode = .ok (wrap s.code (extra.length + 1) extra) :=
      (Direction.encode_eq_ok_iff .reply).mpr ⟨h, rfl⟩
    rw [replyFrame, henc, if_pos h]
  · have henc : (Reply.mk s extra).encode = .error (.payloadTooLarge (extra.length + 1)) := by
      unfold Reply.encode Direction.encode
      exact if_pos (show extra.length + Direction.reply.bias > maxPayload by
        simp only [Direction.bias]; omega)
    rw [replyFrame, henc, if_neg h]

/-- **A reply frame reads back** as its status and payload, or as the bare `BUFFER_FULL` that
stands in for them. -/
theorem decode_replyFrame (s : Status) (extra : List UInt8) :
    Reply.decode (replyFrame s extra) =
      .ok (if extra.length + 1 ≤ maxPayload then ⟨s, extra⟩ else ⟨Status.bufferFull, []⟩) := by
  rw [replyFrame_eq]
  by_cases h : extra.length + 1 ≤ maxPayload
  · have hdec :
        Direction.reply.decode (wrap s.code (extra.length + 1) extra) = .ok (s.code, extra) :=
      Direction.decode_wrap .reply (by simp only [Direction.bias, maxPayload] at h ⊢; omega)
    rw [if_pos h, if_pos h, Reply.decode, hdec]
    simp [Except.map]
  · -- the length field of the stand-in counts its status byte alone
    have hdec : Direction.reply.decode
        (wrap Status.bufferFull.code (([] : List UInt8).length + Direction.reply.bias) []) =
        .ok (Status.bufferFull.code, []) :=
      Direction.decode_wrap .reply (by simp [Direction.bias])
    have hone : ([] : List UInt8).length + Direction.reply.bias = 1 := rfl
    rw [hone] at hdec
    rw [if_neg h, if_neg h, Reply.decode, hdec]
    simp [Except.map]

/-- A reply frame is at most `maxFrameSize` bytes. -/
theorem length_replyFrame_le (s : Status) (extra : List UInt8) :
    (replyFrame s extra).length ≤ maxFrameSize := by
  rw [replyFrame_eq]
  split
  · simp only [length_wrap, maxFrameSize]
    omega
  · simp [maxFrameSize]

/-- A frame the link may write: at most `maxFrameSize` bytes, read back as a reply. -/
def ReplyShaped (f : List UInt8) : Prop :=
  f.length ≤ maxFrameSize ∧ (Reply.decode f).isOk

/-- Every reply frame is one the link may write. -/
theorem replyShaped_replyFrame (s : Status) (extra : List UInt8) :
    ReplyShaped (replyFrame s extra) := by
  refine ⟨length_replyFrame_le s extra, ?_⟩
  rw [decode_replyFrame]
  rfl

/-! ### What an event is owed -/

/-- The commands a link serves. -/
def Command.served : List Command :=
  [.exec, .ping, .reset, .queryStack, .queryMemory, .queryWord]

/-- What a link's answer to a receiver event must be: a frame it may write; `BUFFER_FULL`
for an oversize length, `INVALID_FRAME` for a frame that does not decode, and `ERROR` for a
request whose command is not served. -/
def Answers (ev : Event) (f : List UInt8) : Prop :=
  ReplyShaped f ∧
    match ev with
    | .oversize _ => f = replyFrame Status.bufferFull []
    | .frame g =>
      match Frame.decode g with
      | .error _ => f = replyFrame Status.invalidFrame []
      | .ok r => r.command ∉ Command.served → f = replyFrame Status.general []

namespace Link

/-! ### One frame -/

/-- How an upload's run is answered when no handler can abort it: with one of the two
replies. -/
theorem runAnswer_of_no_abort {r : Except RunError Unit}
    (h : ∀ e, r = .error e → (∃ x, e = .exec x) ∨ e = .outOfFuel) (onOk onError : List UInt8) :
    runAnswer onOk onError r = .reply onOk ∨ runAnswer onOk onError r = .reply onError := by
  rcases r with e | ⟨⟩
  · -- a failed run, at an instruction or out of fuel
    rcases h e rfl with ⟨x, rfl⟩ | rfl <;> exact .inr rfl
  · exact .inl rfl

/-- A link's answer that is a reply frame and leaves the receiver as it was. -/
def RepliesFrom (l : Link) (a : Link × Answer) : Prop :=
  a.1.rx = l.rx ∧ ∃ s extra, a.2 = .reply (replyFrame s extra)

variable {sys : Option (SysHandler Id)}

/-- An upload that ends by running a word answers with one of its two replies, and leaves the
receiver as it was. -/
theorem repliesFrom_run (hsys : ∀ h, sys = some h → h.NeverAborts) (l l' : Link)
    (hrx : l'.rx = l.rx) (w : Word) (s₁ s₂ : Status) (e₁ e₂ : List UInt8) :
    l.RepliesFrom (Id.run (l'.machine.exec sys w >>= fun (m, r) =>
      pure ({ l' with machine := m }, runAnswer (replyFrame s₁ e₁) (replyFrame s₂ e₂) r))) := by
  -- the handler, if any, does not abort the run
  have hno : ∀ e, (l'.machine.exec (M := Id) sys w).2 = .error e →
      (∃ x, e = .exec x) ∨ e = .outOfFuel := fun _ => Machine.exec_error_of_neverAborts hsys
  generalize l'.machine.exec (M := Id) sys w = res at hno
  obtain ⟨m, r⟩ := res
  refine ⟨hrx, ?_⟩
  rcases runAnswer_of_no_abort (r := r) hno (replyFrame s₁ e₁) (replyFrame s₂ e₂) with h | h
  · exact ⟨s₁, e₁, h⟩
  · exact ⟨s₂, e₂, h⟩

/-- A word query is answered by a reply frame. -/
theorem queryWord_eq_replyFrame (l : Link) (idx : Nat) :
    ∃ s extra, l.queryWord idx = replyFrame s extra := by
  unfold queryWord
  split
  · exact ⟨_, _, rfl⟩
  · split
    · exact ⟨_, _, rfl⟩
    · exact ⟨_, _, rfl⟩

/-- **An upload with no handler, or one that never aborts, is answered by a reply frame**,
whichever way it goes. -/
theorem exec_repliesFrom (hsys : ∀ h, sys = some h → h.NeverAborts) (l : Link) (P : List UInt8) :
    l.RepliesFrom (Id.run (l.exec sys P)) := by
  cases hP : Container.isContainer P with
  | false =>
    rw [exec_bare sys l P hP, uploadBare]
    split
    · exact repliesFrom_run hsys l _ (rx_withWords l _) _ _ _ _ _
    · exact ⟨rfl, _, _, rfl⟩
  | true =>
    cases hh : Container.readHeader P with
    | error e =>
      rw [exec_badHeader sys l hP hh]
      exact ⟨rfl, _, _, rfl⟩
    | ok h =>
      rw [exec_container sys l hh, uploadContainer]
      dsimp only
      split
      · exact ⟨rx_withWords l _, _, _, rfl⟩
      split
      · exact ⟨rx_withWords l _, _, _, rfl⟩
      split
      · exact ⟨rx_withWords l _, _, _, rfl⟩
      · exact repliesFrom_run hsys l _ (rx_withWords l _) _ _ _ _ _

/-- **Every frame is answered by a reply frame**, and the receiver is left as it was. -/
theorem handleFrame_repliesFrom (hsys : ∀ h, sys = some h → h.NeverAborts) (l : Link)
    (g : List UInt8) : l.RepliesFrom (Id.run (l.handleFrame sys g)) := by
  unfold handleFrame
  cases hd : Frame.decode g with
  | error e => exact ⟨rfl, _, _, rfl⟩
  | ok r =>
    dsimp only
    -- one branch per served command, and the last for the rest
    split
    · exact exec_repliesFrom hsys l r.payload
    split
    · exact ⟨rfl, _, _, rfl⟩
    split
    · exact ⟨rfl, _, _, rfl⟩
    split
    · exact ⟨rfl, _, _, rfl⟩
    split
    · split <;> exact ⟨rfl, _, _, rfl⟩
    split
    · split
      · obtain ⟨s, extra, hq⟩ := queryWord_eq_replyFrame l _
        exact ⟨rfl, s, extra, by rw [← hq]; rfl⟩
      · exact ⟨rfl, _, _, rfl⟩
    · exact ⟨rfl, _, _, rfl⟩

variable {M : Type → Type} [Monad M]

/-- A frame that does not decode is answered `INVALID_FRAME`. -/
theorem handleFrame_of_decode_error (sys : Option (SysHandler M)) (l : Link) {g : List UInt8}
    {e : FrameError} (hd : Frame.decode g = .error e) :
    l.handleFrame sys g = pure (l, .reply (replyFrame Status.invalidFrame [])) := by
  unfold handleFrame
  rw [hd]

/-- A request for a command the link does not serve is answered `ERROR`. -/
theorem handleFrame_of_unserved (sys : Option (SysHandler M)) (l : Link) {g : List UInt8}
    {r : Frame} (hd : Frame.decode g = .ok r) (hc : r.command ∉ Command.served) :
    l.handleFrame sys g = pure (l, .reply (replyFrame Status.general [])) := by
  unfold handleFrame
  rw [hd]
  simp only [Command.served, List.mem_cons, List.not_mem_nil, or_false, not_or] at hc
  obtain ⟨h1, h2, h3, h4, h5, h6⟩ := hc
  simp only [if_neg h1, if_neg h2, if_neg h3, if_neg h4, if_neg h5, if_neg h6]

/-! ### Byte by byte -/

/-- **One byte is answered before the next is taken**: with no handler or one that never
aborts, the link's receiver moves as the receiver alone would, and the event the byte
completes, if any, is answered by one reply. -/
theorem feed_answers_of_neverAborts (hsys : ∀ h, sys = some h → h.NeverAborts) (l : Link)
    (b : UInt8) :
    (Id.run (l.feed sys b)).1.rx = (l.rx.step b).1 ∧
      Option.Rel (fun ev a => ∃ f, a = .reply f ∧ Answers ev f)
        (l.rx.step b).2 (Id.run (l.feed sys b)).2 := by
  unfold feed
  generalize l.rx.step b = p
  obtain ⟨rx, ev⟩ := p
  cases ev with
  | none => exact ⟨rfl, .none⟩
  | some ev =>
    cases ev with
    | oversize n => exact ⟨rfl, .some ⟨_, rfl, replyShaped_replyFrame _ _, rfl⟩⟩
    | frame g =>
      obtain ⟨hrx, s, extra, hreply⟩ := handleFrame_repliesFrom hsys { l with rx } g
      have hinvalid : ∀ e, Frame.decode g = .error e →
          (Id.run ({ l with rx }.handleFrame sys g)).2 =
            .reply (replyFrame Status.invalidFrame []) :=
        fun e hd => by rw [handleFrame_of_decode_error sys _ hd]; rfl
      have hunserved : ∀ r, Frame.decode g = .ok r → r.command ∉ Command.served →
          (Id.run ({ l with rx }.handleFrame sys g)).2 = .reply (replyFrame Status.general []) :=
        fun r hd hc => by rw [handleFrame_of_unserved sys _ hd hc]; rfl
      simp only [Id.run_bind, Id.run_pure]
      generalize Id.run ({ l with rx }.handleFrame sys g) = res at hrx hreply hinvalid hunserved ⊢
      obtain ⟨l', a⟩ := res
      dsimp only at hreply hrx hinvalid hunserved
      subst hreply
      refine ⟨hrx, .some ⟨_, rfl, replyShaped_replyFrame s extra, ?_⟩⟩
      -- which reply it is, by how the frame decodes
      dsimp only
      cases hd : Frame.decode g with
      | error e => exact Answer.reply.inj (hinvalid e hd)
      | ok r => exact fun hc => Answer.reply.inj (hunserved r hd hc)

/-- **A stream is answered event by event**: with no handler or one that never aborts,
writing bytes never aborts, moves the link's receiver as the receiver alone would move, and
writes one reply for each event the receiver reports, in the order of the events. -/
theorem write_answers_of_neverAborts (hsys : ∀ h, sys = some h → h.NeverAborts) (l : Link)
    (bs : List UInt8) :
    (Id.run (l.write sys bs)).2.abort = none ∧
      (Id.run (l.write sys bs)).1.rx = (l.rx.feed bs).1 ∧
      List.Forall₂ Answers (l.rx.feed bs).2 (Id.run (l.write sys bs)).2.replies := by
  induction bs generalizing l with
  | nil => exact ⟨rfl, rfl, .nil⟩
  | cons b bs ih =>
    obtain ⟨hrx, hrel⟩ := feed_answers_of_neverAborts hsys l b
    have hfeed : l.rx.feed (b :: bs) = (((l.rx.step b).1.feed bs).1,
        (l.rx.step b).2.toList ++ ((l.rx.step b).1.feed bs).2) :=
      Receiver.feed_cons_of_step rfl bs
    -- the first byte is answered by `feed_answers_of_neverAborts`, the rest by induction
    rw [hfeed, write]
    simp only [Id.run_bind]
    generalize Id.run (l.feed sys b) = p at hrx hrel ⊢
    obtain ⟨l', a⟩ := p
    dsimp only at hrx hrel
    rw [← hrx]
    generalize (l.rx.step b).2 = ev at hrel ⊢
    obtain ⟨habort, hrx', hall⟩ := ih l'
    cases hrel with
    | none => exact ⟨habort, hrx', hall⟩
    | some hans =>
      obtain ⟨f, rfl, hans⟩ := hans
      simp only [Id.run_bind, Id.run_pure]
      exact ⟨habort, hrx', .cons hans hall⟩

/-- With no handler, one byte is answered before the next is taken. -/
theorem feed_answers (l : Link) (b : UInt8) :
    (Id.run (l.feed none b)).1.rx = (l.rx.step b).1 ∧
      Option.Rel (fun ev a => ∃ f, a = .reply f ∧ Answers ev f)
        (l.rx.step b).2 (Id.run (l.feed none b)).2 :=
  feed_answers_of_neverAborts (fun _ h => by cases h) l b

/-- With no handler, a stream is answered event by event. -/
theorem write_answers (l : Link) (bs : List UInt8) :
    (Id.run (l.write none bs)).2.abort = none ∧
      (Id.run (l.write none bs)).1.rx = (l.rx.feed bs).1 ∧
      List.Forall₂ Answers (l.rx.feed bs).2 (Id.run (l.write none bs)).2.replies :=
  write_answers_of_neverAborts (fun _ h => by cases h) l bs

/-- **The link answers every event once.** With no handler: the byte that completes an event
is answered by one reply before the next byte is taken, and a byte that completes none is not
answered; writing a stream never aborts, leaves the link's receiver where the receiver alone
would be, and writes exactly one reply per event of that receiver on the stream, in order.
Each reply is at most `maxFrameSize` bytes and reads back as a reply; a frame that does not
decode is answered `INVALID_FRAME`, an unserved command `ERROR`, and an oversize length
`BUFFER_FULL`. -/
theorem link_answers_each_event_once (l : Link) (b : UInt8) (bs : List UInt8) :
    Option.Rel (fun ev a => ∃ f, a = .reply f ∧ Answers ev f)
        (l.rx.step b).2 (Id.run (l.feed none b)).2 ∧
      (Id.run (l.write none bs)).2.abort = none ∧
      (Id.run (l.write none bs)).1.rx = (l.rx.feed bs).1 ∧
      List.Forall₂ Answers (l.rx.feed bs).2 (Id.run (l.write none bs)).2.replies :=
  ⟨(feed_answers l b).2, write_answers l bs⟩

end Link

end StackLink
