import Mathlib
import StackLink.Proofs.Sessions

/-!
# A reset gives back a fresh link

A link can be reset in two ways: by `Link.reset`, which also drops a frame half received, or
by a `RESET` request. This file shows that either way the link then answers every stream as a
fresh link over a fresh machine would (`StackLink.Link.reset_gives_fresh_link`). That holds
for every link a host can reach, with no handler or a confined one.

Two facts carry it.

* **A reachable link keeps its shape**: its settings, its machine's configuration and memory
  size, and its receiver's capacity and direction are those of the fresh link it came from
  (`StackLink.Link.Fits`). A reset clears the table, the stacks, memory, the word buffers and
  the frame in progress. So `Link.reset` gives back the fresh link itself
  (`StackLink.Link.reset_eq_new`).
* **What a receiver keeps of an old frame is never read again.** After a `RESET` request the
  receiver is back to waiting for a marker, but it still holds the bytes, length and count of
  that request. Each phase reads only some fields: the frame so far from the marker on, the
  body length once it is known, and the count of body bytes while they come in. The rest is
  overwritten before it is read. `StackLink.Receiver.live` forgets what the phase does not
  read, and two links that agree once that is forgotten answer every stream alike
  (`StackLink.Link.write_of_live_eq`).
-/

namespace StackLink

namespace Receiver

/-- The receiver with the fields its phase never reads set to their defaults. Waiting for a
marker, it reads none; after the marker it reads the frame so far. From the high length byte
to the slot byte it also reads the body length, and during the body also the count of body
bytes. The slot byte is stored but never read. -/
def live (r : Receiver) : Receiver :=
  match r.phase with
  | .waitStart => r.reset
  | .waitLenLow | .waitChecksum => { r with length := 0, pos := 0, command := 0 }
  | .waitLenHigh | .waitCommand => { r with pos := 0, command := 0 }
  | .waitPayload => { r with command := 0 }

/-- **A step reads only the live fields**: it reports the same event from a receiver and from
its live part, and leads to the same live part. -/
theorem step_live (r : Receiver) (b : UInt8) :
    (r.live.step b).2 = (r.step b).2 ∧ (r.live.step b).1.live = (r.step b).1.live := by
  cases h : r.phase
  case waitStart => by_cases hb : b = stx <;> simp [live, step, reset, h, hb]
  -- the high length byte either goes on to the slot byte or gives up on the frame
  case waitLenHigh =>
    simp only [live, step, h]
    split <;> simp_all [reset]
  all_goals simp [live, step, reset, h]

/-- A frame is handed on only from the checksum byte, which sends the receiver back to waiting
for a marker. -/
theorem phase_of_frame {r : Receiver} {b : UInt8} {g : List UInt8}
    (h : (r.step b).2 = some (.frame g)) : (r.step b).1.phase = .waitStart := by
  cases hp : r.phase <;> simp only [step, hp] at h ⊢
  all_goals first | rfl | (split at h <;> simp at h) | simp at h

/-- A receiver waiting for a marker is, in what it reads, a fresh one. -/
theorem live_of_waitStart {r : Receiver} (h : r.phase = .waitStart) :
    r.live = { capacity := r.capacity, direction := r.direction } := by
  simp [live, h, reset]

end Receiver

namespace Link

variable {sys : Option (SysHandler Id)} {l l₁ l₂ : Link} {mcfg : MachineConfig}
  {lcfg : LinkConfig}

/-- The link with its receiver's unread fields forgotten. -/
def live (l : Link) : Link := { l with rx := l.rx.live }

/-! ### Answering a frame does not read the receiver -/

/-- **An upload neither reads nor moves the receiver.** -/
theorem exec_withRx (sys : Option (SysHandler Id)) (l : Link) (r : Receiver) (P : List UInt8) :
    Id.run ({ l with rx := r }.exec sys P) =
      ({ (Id.run (l.exec sys P)).1 with rx := r }, (Id.run (l.exec sys P)).2) := by
  cases hP : Container.isContainer P with
  | false =>
    rw [exec_bare sys _ P hP, exec_bare sys l P hP]
    unfold uploadBare
    split <;> rfl
  | true =>
    cases hh : Container.readHeader P with
    | error e => rw [exec_badHeader sys _ hP hh, exec_badHeader sys l hP hh]; rfl
    | ok h =>
      rw [exec_container sys _ hh, exec_container sys l hh]
      unfold uploadContainer
      dsimp only
      split
      · rfl
      split
      · rfl
      split <;> rfl

/-- **Answering a frame neither reads nor moves the receiver.** -/
theorem handleFrame_withRx (sys : Option (SysHandler Id)) (l : Link) (r : Receiver)
    (g : List UInt8) :
    Id.run ({ l with rx := r }.handleFrame sys g) =
      ({ (Id.run (l.handleFrame sys g)).1 with rx := r }, (Id.run (l.handleFrame sys g)).2) := by
  unfold handleFrame
  cases Frame.decode g with
  | error e => rfl
  | ok f =>
    dsimp only
    split
    · exact exec_withRx sys l r f.payload
    split
    · rfl
    split
    · rfl
    split
    · rfl
    split
    · split <;> rfl
    split
    · split <;> rfl
    · rfl

/-! ### Links that agree on what they will read -/

/-- **A byte reads only the live part of a link**: it gets the same answer from a link and
from its live part, and leads to the same live part. -/
theorem feed_live (sys : Option (SysHandler Id)) (l : Link) (b : UInt8) :
    (Id.run (l.live.feed sys b)).2 = (Id.run (l.feed sys b)).2 ∧
      (Id.run (l.live.feed sys b)).1.live = (Id.run (l.feed sys b)).1.live := by
  obtain ⟨hev, hrx⟩ := l.rx.step_live b
  unfold feed live
  dsimp only
  generalize l.rx.live.step b = p at hev hrx
  generalize l.rx.step b = q at hev hrx
  obtain ⟨r₁, e₁⟩ := p
  obtain ⟨r₂, e₂⟩ := q
  dsimp only at hev hrx
  subst hev
  -- the same event, from receivers with the same live part
  rcases e₁ with _ | (g | n)
  · exact ⟨rfl, by simp [hrx]⟩
  · simp only [Id.run_bind, Id.run_pure]
    rw [handleFrame_withRx sys l r₁ g, handleFrame_withRx sys l r₂ g]
    exact ⟨rfl, by simp [hrx]⟩
  · exact ⟨rfl, by simp [hrx]⟩

/-- Two links that agree on what they will read take a byte alike. -/
theorem feed_of_live_eq (sys : Option (SysHandler Id)) (h : l₁.live = l₂.live) (b : UInt8) :
    (Id.run (l₁.feed sys b)).2 = (Id.run (l₂.feed sys b)).2 ∧
      (Id.run (l₁.feed sys b)).1.live = (Id.run (l₂.feed sys b)).1.live := by
  obtain ⟨ha₁, hl₁⟩ := feed_live sys l₁ b
  obtain ⟨ha₂, hl₂⟩ := feed_live sys l₂ b
  rw [← ha₁, ← ha₂, ← hl₁, ← hl₂, h]
  exact ⟨rfl, rfl⟩

/-- **Two links that agree on what they will read answer every stream alike.** -/
theorem write_of_live_eq (sys : Option (SysHandler Id)) (h : l₁.live = l₂.live)
    (bs : List UInt8) : (Id.run (l₁.write sys bs)).2 = (Id.run (l₂.write sys bs)).2 := by
  induction bs generalizing l₁ l₂ with
  | nil => rfl
  | cons b bs ih =>
    obtain ⟨ha, hl⟩ := feed_of_live_eq sys h b
    simp only [Link.write, Id.run_bind]
    generalize Id.run (l₁.feed sys b) = p₁ at ha hl
    generalize Id.run (l₂.feed sys b) = p₂ at ha hl
    obtain ⟨l₁', a⟩ := p₁
    obtain ⟨l₂', a'⟩ := p₂
    dsimp only at ha hl
    subst ha
    -- the same answer, then the rest of the stream from links that still agree
    rcases a with _ | (f | r)
    · exact ih hl
    · simp only [Id.run_bind, Id.run_pure]
      rw [ih hl]
    · rfl

/-! ### The shape of a reachable link -/

/-- The parts of a link that no frame and no reset changes: its settings, its machine's
configuration and memory size, and its receiver's capacity and direction, as in a fresh link
built with `mcfg` and `lcfg`. -/
structure Fits (mcfg : MachineConfig) (lcfg : LinkConfig) (l : Link) : Prop where
  config : l.config = lcfg.clamp
  machineConfig : l.machine.config = mcfg
  memSize : l.machine.mem.size = mcfg.memorySize
  capacity : l.rx.capacity = lcfg.clamp.bufferSize.toNat
  direction : l.rx.direction = .request

theorem fits_new (mcfg : MachineConfig) (lcfg : LinkConfig) :
    Fits mcfg lcfg (Link.new (Machine.new mcfg) lcfg) :=
  ⟨rfl, rfl, by simp [Link.new, Machine.new], rfl, rfl⟩

theorem Fits.moves {l' : Link} (h : Fits mcfg lcfg l) (hm : l.Moves l') : Fits mcfg lcfg l' := by
  cases hm with
  | keep => exact h
  | reset => exact ⟨h.config, h.machineConfig, by simp [Machine.reset, h.memSize], h.capacity,
      h.direction⟩
  | upload ws m halike =>
    -- the upload keeps the machine's configuration and memory, and its run is alike
    exact ⟨h.config, halike.config.trans h.machineConfig, halike.memSize.trans h.memSize,
      h.capacity, h.direction⟩

theorem Fits.step (h : Fits mcfg lcfg l) (b : UInt8) :
    Fits mcfg lcfg { l with rx := (l.rx.step b).1 } :=
  ⟨h.config, h.machineConfig, h.memSize, (Receiver.step_capacity _ _).trans h.capacity,
    (Receiver.step_direction _ _).trans h.direction⟩

/-- **`Link.reset` gives back the fresh link** a link of this shape came from. -/
theorem reset_eq_new (h : Fits mcfg lcfg l) : l.reset = Link.new (Machine.new mcfg) lcfg := by
  obtain ⟨hc, hmc, hmem, hcap, hdir⟩ := h
  obtain ⟨c, ⟨mc, ws, d, r, mem⟩, ⟨cap, dir, ph, buf, len, pos, cmd⟩, bufs⟩ := l
  dsimp only at hc hmc hmem hcap hdir
  subst hc hmc hcap hdir
  simp [Link.reset, Link.new, Machine.reset, Machine.new, Receiver.reset, Receiver.new, hmem]

theorem Fits.reset (h : Fits mcfg lcfg l) : Fits mcfg lcfg l.reset := by
  rw [reset_eq_new h]
  exact fits_new mcfg lcfg

/-- Every link a host can reach keeps the shape of the fresh link it came from. -/
theorem Reachable.fits (hsys : ∀ h, sys = some h → h.Confined)
    (hl : Reachable sys mcfg lcfg l) : Fits mcfg lcfg l :=
  Reachable.induction_moves hsys (fits_new mcfg lcfg) (fun h hm => h.moves hm)
    (fun b h => h.step b) (fun h => h.reset) hl

/-- A fresh link reads nothing it does not need. -/
theorem live_new (m : Machine) (lcfg : LinkConfig) : (Link.new m lcfg).live = Link.new m lcfg :=
  rfl

/-- **A `RESET` request leaves a link that agrees with a fresh one on what it will read.** -/
theorem live_after_reset_request (sys : Option (SysHandler Id)) (h : Fits mcfg lcfg l)
    {b : UInt8} {g : List UInt8} {f : Frame} (hev : (l.rx.step b).2 = some (.frame g)) (hd : Frame.decode g = .ok f)
    (hc : f.command = Command.reset) :
    (Id.run (l.feed sys b)).1.live = Link.new (Machine.new mcfg) lcfg ∧
      (Id.run (l.feed sys b)).2 = some (.reply (replyFrame Status.ok [])) := by
  have hstep : l.rx.step b = ((l.rx.step b).1, some (.frame g)) := by rw [← hev]
  rw [feed_of_frame sys l hstep, handleFrame_of_reset sys _ hd hc]
  refine ⟨?_, rfl⟩
  -- the machine and the buffers are those of a fresh link; the receiver waits for a marker
  have hreset := reset_eq_new h
  have hrx : (l.rx.step b).1.live = Receiver.new lcfg.clamp.bufferSize .request := by
    rw [Receiver.live_of_waitStart (Receiver.phase_of_frame hev), Receiver.step_capacity,
      Receiver.step_direction, h.capacity, h.direction]
    rfl
  simp only [Link.reset, Link.new] at hreset
  simp only [live, Link.new, hrx]
  obtain ⟨hc', hm', -, -⟩ := Link.mk.inj hreset
  rw [← hc', ← hm']

/-- **A reset gives back a fresh link.** Take a link that a host has reached from a fresh link
over a fresh machine, by feeding bytes and resetting, with no handler or a confined one.
`Link.reset` turns it into that fresh link: the table, the stacks, memory and the word buffers
are cleared, and the frame half received is dropped. A byte that completes a `RESET` request
is answered `OK`. From then on the link answers every stream exactly as the fresh link does,
though its receiver still holds the bytes of the request. -/
theorem reset_gives_fresh_link (hsys : ∀ h, sys = some h → h.Confined)
    (hl : Reachable sys mcfg lcfg l) :
    l.reset = Link.new (Machine.new mcfg) lcfg ∧
      ∀ b g f, (l.rx.step b).2 = some (.frame g) → Frame.decode g = .ok f →
        f.command = Command.reset →
        (Id.run (l.feed sys b)).2 = some (.reply (replyFrame Status.ok [])) ∧
          ∀ bs, (Id.run ((Id.run (l.feed sys b)).1.write sys bs)).2 =
            (Id.run ((Link.new (Machine.new mcfg) lcfg).write sys bs)).2 := by
  have hfits := Reachable.fits hsys hl
  refine ⟨reset_eq_new hfits, fun b g f hev hd hc => ?_⟩
  obtain ⟨hlive, hans⟩ := live_after_reset_request sys hfits hev hd hc
  refine ⟨hans, fun bs => write_of_live_eq sys ?_ bs⟩
  rw [hlive, live_new]

/-- A fresh link with no handler is sent an upload of bare code (`RET`) and the first two
bytes of another frame. A reset gives it back as it was. -/
theorem reset_mid_frame_gives_fresh_link :
    let fresh := Link.new (Machine.new MachineConfig.default) LinkConfig.default
    let l := (Id.run (fresh.write none (wrap 0x10 1 [0x51] ++ [stx, 5]))).1
    Reachable none MachineConfig.default LinkConfig.default l ∧
      l.reset = fresh ∧
      ∀ b g f, (l.rx.step b).2 = some (.frame g) → Frame.decode g = .ok f →
        f.command = Command.reset →
        (Id.run (l.feed none b)).2 = some (.reply (replyFrame Status.ok [])) ∧
          ∀ bs, (Id.run ((Id.run (l.feed none b)).1.write none bs)).2 =
            (Id.run (fresh.write none bs)).2 :=
  have hl := Reachable.write .new (wrap 0x10 1 [0x51] ++ [stx, 5])
  ⟨hl, reset_gives_fresh_link (fun _ h => by cases h) hl⟩

end Link

end StackLink
