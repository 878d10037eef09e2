import StackLink.Wire.Receiver
import StackLink.Code.Container
import StackLink.Machine.Run
import StackLink.Device.LinkConfig

/-!
# The device side of the link

A link sits between a byte stream and a machine. Its receiver cuts request
frames out of the stream; each complete frame gets exactly one reply frame, and
so does each length over the buffer (`BUFFER_FULL`, before the next byte is
read). A frame that fails decoding is answered `INVALID_FRAME`; an unknown
command `ERROR`.

| command | effect | reply payload |
|---|---|---|
| `EXEC` code | registers the code as an unnamed word and runs it; a run failure is not reported | `[1][index]` |
| `EXEC` container | registers the records in order (calls relocated by the table size when relocation is on), then the main code, and runs it | `[count][indices…]` |
| `PING` | nothing | empty |
| `RESET` | clears the machine and the word buffers | empty |
| `QUERY_STACK` | nothing | each stack's count and top cells, bottom first |
| `QUERY_MEMORY` addr len | nothing | up to the memory window of bytes, zeros where a word cannot be read |
| `QUERY_WORD` index | nothing | the word's name and code |

The link keeps its own copy of every registered code string (its *word
buffers*), in step with the machine's table: a registration the machine refuses
is dropped from both. A reply too long for a frame is replaced by a bare
`BUFFER_FULL`.

System calls reach the host through the handler passed to every operation; a
handler that aborts stops the link where it is, with no reply to the frame being
handled and no further bytes read.
-/

namespace StackLink

/-- A device link: its settings (in range), the machine, the receiver and the word buffers. -/
structure Link where
  config : LinkConfig
  machine : Machine
  rx : Receiver
  buffers : List (List UInt8)
deriving Repr

/-- How a link answered one frame: a reply frame, or an aborted system call. -/
inductive Answer where
  | reply (frame : List UInt8)
  | abort (reason : String)
deriving DecidableEq, Repr

/-- What a link did with a run of bytes: the reply frames in order, and the reason of an
abort that stopped it. -/
structure Output where
  replies : List (List UInt8) := []
  abort : Option String := none
deriving DecidableEq, Repr

/-- The reply frame for a status and its payload; a payload too long for a frame becomes a
bare `BUFFER_FULL`. -/
def replyFrame (s : Status) (extra : List UInt8) : List UInt8 :=
  match (Reply.mk s extra).encode with
  | .ok f => f
  | .error _ => wrap Status.bufferFull.code 1 []

namespace Link

/-- A link over a machine, with its settings clamped into range. -/
def new (m : Machine) (cfg : LinkConfig) : Link :=
  let c := cfg.clamp
  ⟨c, m, Receiver.new c.bufferSize .request, []⟩

/-- The receive buffer's capacity. -/
def bufferCapacity (l : Link) : Nat := l.rx.capacity

/-- How many word buffers the link holds. -/
def wordBuffers (l : Link) : Nat := l.buffers.length

/-- Clears the machine and the word buffers, and forgets any partial frame. -/
def reset (l : Link) : Link :=
  { l with machine := l.machine.reset, buffers := [], rx := l.rx.reset }

/-- Registers a copy of `code`, relocated by `offset`, under `name`; a registration the
machine refuses leaves everything as it was. -/
def register (l : Link) (name code : List UInt8) (offset : Nat) : Option (Link × Nat) :=
  let owned := Code.relocate (UInt16.ofNat offset) code
  match l.machine.registerWord name owned with
  | .ok (m, idx) => some ({ l with machine := m, buffers := l.buffers ++ [owned] }, idx)
  | .error _ => none

/-- The reply payload listing word indices: a count byte and each index as 16 bits. -/
def indicesPayload (idxs : List Nat) : List UInt8 :=
  UInt8.ofNat idxs.length :: idxs.flatMap Bytes.le16

/-- Registers each record in turn and returns the link with the indices given; the first
refusal stops there, keeping the registrations before it. -/
def registerAll (l : Link) (offset : Nat) : List WordDef → Link × List Nat × Bool
  | [] => (l, [], true)
  | w :: ws =>
    match l.register w.name w.code offset with
    | some (l', i) =>
      let (l'', is, ok) := l'.registerAll offset ws
      (l'', i :: is, ok)
    | none => (l, [], false)

/-- Runs an uploaded container. -/
def execContainer {M : Type → Type} [Monad M] (sys : Option (SysHandler M)) (l : Link)
    (payload : List UInt8) : M (Link × Answer) :=
  match Container.readHeader payload with
  | .error _ => pure (l, .reply (replyFrame Status.general []))
  | .ok h =>
    let offset := if l.config.relocate then l.machine.wordCount else 0
    let (defs, failure) := h.records payload
    match l.registerAll offset (defs.map (·.1)) with
    | (l, _, false) => pure (l, .reply (replyFrame Status.vmError []))
    | (l, idxs, true) =>
      match failure with
      | some _ => pure (l, .reply (replyFrame Status.general []))
      | none =>
        match l.register [] (h.main payload) offset with
        | none => pure (l, .reply (replyFrame Status.vmError []))
        | some (l, idx) =>
          match l.machine.word? idx with
          | none => pure (l, .reply (replyFrame Status.vmError []))
          | some w => do
            let (m, r) ← l.machine.exec sys w
            let l := { l with machine := m }
            match r with
            | .ok () => pure (l, .reply (replyFrame Status.ok (indicesPayload (idxs ++ [idx]))))
            | .error (.abort reason) => pure (l, .abort reason)
            | .error _ => pure (l, .reply (replyFrame Status.vmError []))

/-- Runs uploaded code: a container, or bare code as one unnamed word whose run result is
not reported. -/
def exec {M : Type → Type} [Monad M] (sys : Option (SysHandler M)) (l : Link)
    (payload : List UInt8) : M (Link × Answer) :=
  if Container.isContainer payload then l.execContainer sys payload
  else
    match l.register [] payload 0 with
    | none => pure (l, .reply (replyFrame Status.vmError []))
    | some (l, idx) =>
      match l.machine.word? idx with
      | none => pure (l, .reply (replyFrame Status.vmError []))
      | some w => do
        let (m, r) ← l.machine.exec sys w
        let l := { l with machine := m }
        match r with
        | .error (.abort reason) => pure (l, .abort reason)
        | _ => pure (l, .reply (replyFrame Status.ok (indicesPayload [idx])))

/-- A stack's count and its top `window` cells, bottom first, as 32-bit words. -/
def stackPayload (window : Nat) (cells : List Int32) : List UInt8 :=
  let top := (cells.take window).reverse
  UInt8.ofNat top.length :: top.flatMap fun v => Bytes.le32 v.toUInt32.toNat

/-- The reply payload of a stack query. -/
def queryStack (l : Link) : List UInt8 :=
  let w := l.config.stackWindow.toNat
  stackPayload w l.machine.data ++ stackPayload w l.machine.ret

/-- The reply payload of a memory query: `min len window` bytes read a word at a time from
`addr` on (wrapping at `2^32`), a word that cannot be read counting as zero. -/
def queryMemory (l : Link) (addr len : Nat) : List UInt8 :=
  let n := min len l.config.memoryWindow.toNat
  (List.range ((n + 3) / 4)).flatMap fun k =>
    let v := (l.machine.readMemory32 (UInt32.ofNat (addr + 4 * k))).toOption.getD 0
    (Bytes.le32 v.toNat).take (n - 4 * k)

/-- The reply to a word query: the name's length and bytes, the code's 16-bit length and
bytes; a reply over a whole payload is a bare `BUFFER_FULL`. -/
def queryWord (l : Link) (idx : Nat) : List UInt8 :=
  match l.machine.word? idx with
  | none => replyFrame Status.vmError []
  | some w =>
    if w.name.length > 255 ∨ 1 + w.name.length + 2 + w.code.length > maxPayload then
      replyFrame Status.bufferFull []
    else replyFrame Status.ok
      (UInt8.ofNat w.name.length :: w.name ++ Bytes.le16 w.code.length ++ w.code)

/-- Answers one complete frame. -/
def handleFrame {M : Type → Type} [Monad M] (sys : Option (SysHandler M)) (l : Link)
    (bytes : List UInt8) : M (Link × Answer) :=
  match Frame.decode bytes with
  | .error _ => pure (l, .reply (replyFrame Status.invalidFrame []))
  | .ok f =>
    let c := f.command
    let p := f.payload
    if c = Command.exec then l.exec sys p
    else if c = Command.ping then pure (l, .reply (replyFrame Status.ok []))
    else if c = Command.reset then
      pure ({ l with machine := l.machine.reset, buffers := [] }, .reply (replyFrame Status.ok []))
    else if c = Command.queryStack then pure (l, .reply (replyFrame Status.ok l.queryStack))
    else if c = Command.queryMemory then
      match Bytes.readLE32 p 0, Bytes.readLE16 p 4 with
      | some addr, some len => pure (l, .reply (replyFrame Status.ok (l.queryMemory addr len)))
      | _, _ => pure (l, .reply (replyFrame Status.invalidFrame []))
    else if c = Command.queryWord then
      match Bytes.readLE16 p 0 with
      | some idx => pure (l, .reply (l.queryWord idx))
      | none => pure (l, .reply (replyFrame Status.invalidFrame []))
    else pure (l, .reply (replyFrame Status.general []))

/-- Takes one byte, and answers the frame or the oversize length it completes. -/
def feed {M : Type → Type} [Monad M] (sys : Option (SysHandler M)) (l : Link) (b : UInt8) :
    M (Link × Option Answer) :=
  let (rx, ev) := l.rx.step b
  let l := { l with rx }
  match ev with
  | none => pure (l, none)
  | some (.oversize _) => pure (l, some (.reply (replyFrame Status.bufferFull [])))
  | some (.frame f) => do
    let (l, a) ← l.handleFrame sys f
    pure (l, some a)

/-- Takes bytes in order until they run out or a system call aborts. -/
def write {M : Type → Type} [Monad M] (sys : Option (SysHandler M)) (l : Link) :
    List UInt8 → M (Link × Output)
  | [] => pure (l, {})
  | b :: bs => do
    let (l, a) ← l.feed sys b
    match a with
    | some (.abort r) => pure (l, { abort := some r })
    | some (.reply f) => do
      let (l, o) ← l.write sys bs
      pure (l, { o with replies := f :: o.replies })
    | none => l.write sys bs

end Link

end StackLink
