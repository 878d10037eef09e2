import StackLink.Wire.Frame

/-!
# Receiving frames one byte at a time

A receiver turns a byte stream into frames. It waits for the marker, reads the
two length bytes, the slot byte, as many body bytes as the length asks for and
the checksum, and then hands the whole frame on. Bytes before a marker are
skipped. The length field less the direction's bias (at least zero) is the body
length; a body longer than the receiver's capacity is reported as an oversize
event instead, right after the second length byte, and the receiver waits for
the next marker.

The receiver does not check the checksum: it only cuts frames out of the stream.
`Receiver.feed` runs it over a byte list and returns the events in order.
-/

namespace StackLink

/-- Where a receiver is in the current frame. -/
inductive Phase where
  | waitStart
  | waitLenLow
  | waitLenHigh
  | waitCommand
  | waitPayload
  | waitChecksum
deriving DecidableEq, Repr

namespace Phase

/-- The phases in order, so that a phase number names one. -/
def all : List Phase :=
  [.waitStart, .waitLenLow, .waitLenHigh, .waitCommand, .waitPayload, .waitChecksum]

/-- The phase's name. -/
def name : Phase → String
  | .waitStart => "WaitStart"
  | .waitLenLow => "WaitLenLow"
  | .waitLenHigh => "WaitLenHigh"
  | .waitCommand => "WaitCommand"
  | .waitPayload => "WaitPayload"
  | .waitChecksum => "WaitChecksum"

/-- The name of phase number `n`; numbers past the last phase print as `State(n)`. -/
def nameOfIndex (n : UInt8) : String :=
  match all[n.toNat]? with
  | some p => p.name
  | none => s!"State({n.toNat})"

end Phase

/-- What a receiver reports: a complete frame (unchecked), or a body length over capacity. -/
inductive Event where
  | frame (bytes : List UInt8)
  | oversize (length : Nat)
deriving DecidableEq, Repr

/-- A frame receiver: its capacity and direction, and the frame in progress. -/
structure Receiver where
  /-- The longest body accepted. -/
  capacity : Nat
  /-- Requests or replies: what the length field counts. -/
  direction : Direction
  phase : Phase := .waitStart
  /-- The bytes of the current frame since its marker. -/
  buf : List UInt8 := []
  /-- The body length of the current frame. -/
  length : Nat := 0
  /-- The body bytes received so far. -/
  pos : Nat := 0
  /-- The slot byte of the current frame. -/
  command : UInt8 := 0
deriving Repr

namespace Receiver

/-- A receiver waiting for a marker; a negative capacity counts as zero. -/
def new (capacity : Int) (d : Direction) : Receiver :=
  { capacity := capacity.toNat, direction := d }

/-- Forgets the frame in progress. -/
def reset (r : Receiver) : Receiver :=
  { r with phase := .waitStart, buf := [], length := 0, pos := 0, command := 0 }

/-- Takes one byte. -/
def step (r : Receiver) (b : UInt8) : Receiver × Option Event :=
  match r.phase with
  | .waitStart =>
    if b = stx then ({ r with buf := [b], phase := .waitLenLow }, none) else (r, none)
  | .waitLenLow =>
    ({ r with buf := r.buf ++ [b], length := b.toNat, phase := .waitLenHigh }, none)
  | .waitLenHigh =>
    -- the length less the bias, stopping at zero
    let len := r.length + 256 * b.toNat - r.direction.bias
    let r' := { r with buf := r.buf ++ [b], length := len }
    if len > r.capacity then ({ r' with phase := .waitStart }, some (.oversize len))
    else ({ r' with phase := .waitCommand }, none)
  | .waitCommand =>
    ({ r with buf := r.buf ++ [b], command := b, pos := 0,
              phase := if r.length = 0 then .waitChecksum else .waitPayload }, none)
  | .waitPayload =>
    ({ r with buf := r.buf ++ [b], pos := r.pos + 1,
              phase := if r.pos + 1 ≥ r.length then .waitChecksum else .waitPayload }, none)
  | .waitChecksum =>
    let frame := r.buf ++ [b]
    ({ r with buf := frame, phase := .waitStart }, some (.frame frame))

/-- Takes a byte list in order and returns the events it caused. -/
def feed (r : Receiver) : List UInt8 → Receiver × List Event
  | [] => (r, [])
  | b :: bs =>
    let (r₁, e) := r.step b
    let (r₂, es) := r₁.feed bs
    (r₂, e.toList ++ es)

end Receiver

end StackLink
