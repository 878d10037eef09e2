import StackLink.Text.Hex
import StackLink.Wire.Crc

/-!
# Frames of the host–device link

A frame is `[A5][LEN lo][LEN hi][slot][body][CRC]`: a start marker, a 16-bit
little-endian length, one slot byte, the body and the checksum of every byte
between the marker and the checksum. Requests carry a command in the slot and
count only their payload in `LEN`; replies carry a status in the slot and count
the status byte too, so a reply's `LEN` is one more than its body. That
difference is the frame's *bias* (`Direction.bias`).

Decoding checks, in this order: the frame is at least five bytes long, it starts
with the marker, the declared length less the bias equals the body length, and
the checksum matches. The first failing check is the error reported.
-/

namespace StackLink

/-- The byte that starts every frame. -/
def stx : UInt8 := 0xA5

/-- The largest body a frame may carry. -/
def maxPayload : Nat := 512

/-- Marker, two length bytes and the slot byte. -/
def headerSize : Nat := 4

/-- The smallest frame: a header and a checksum around an empty body. -/
def minFrameSize : Nat := headerSize + 1

/-- The largest frame: the smallest one around the largest body. -/
def maxFrameSize : Nat := minFrameSize + maxPayload

/-! ### Commands and statuses -/

/-- The command byte of a request. Bytes outside the named set are commands too; the device
answers them with a general error. -/
structure Command where
  code : UInt8
deriving DecidableEq, Repr

namespace Command

/-- Register and run bytecode or a container. -/
def exec : Command := ⟨0x10⟩
/-- Liveness probe. -/
def ping : Command := ⟨0x20⟩
/-- Dump the tops of the data and return stacks. -/
def queryStack : Command := ⟨0x30⟩
/-- Read a window of linear memory. -/
def queryMemory : Command := ⟨0x31⟩
/-- Read a word's name and bytecode. -/
def queryWord : Command := ⟨0x32⟩
/-- Clear words, stacks and memory. -/
def reset : Command := ⟨0xFF⟩

/-- The name a command is printed under; unnamed ones print as `CMD(0xNN)`. -/
def name (c : Command) : String :=
  if c = exec then "EXEC"
  else if c = ping then "PING"
  else if c = queryStack then "QUERY_STACK"
  else if c = queryMemory then "QUERY_MEMORY"
  else if c = queryWord then "QUERY_WORD"
  else if c = reset then "RESET"
  else "CMD(0x" ++ Hex.upper 2 c.code.toNat ++ ")"

end Command

/-- The status byte of a reply. -/
structure Status where
  code : UInt8
deriving DecidableEq, Repr

namespace Status

/-- The request succeeded. -/
def ok : Status := ⟨0x00⟩
/-- The request failed for a reason with no code of its own. -/
def general : Status := ⟨0x01⟩
/-- The request frame failed its checks, or its payload was malformed. -/
def invalidFrame : Status := ⟨0x02⟩
/-- The request, or the reply it asked for, does not fit the buffer. -/
def bufferFull : Status := ⟨0x03⟩
/-- The machine refused the operation. -/
def vmError : Status := ⟨0x04⟩

/-- The name and the explanation of a known status. -/
def describe? (s : Status) : Option (String × String) :=
  if s = ok then some ("OK", "success")
  else if s = general then some ("ERROR", "general error")
  else if s = invalidFrame then
    some ("INVALID_FRAME", "invalid frame (checksum mismatch or malformed payload)")
  else if s = bufferFull then some ("BUFFER_FULL", "frame length exceeds buffer capacity")
  else if s = vmError then some ("VM_ERROR", "virtual machine rejected the operation")
  else none

/-- The status's name; unknown ones print as `ERR(0xNN)`. -/
def name (s : Status) : String :=
  match s.describe? with
  | some (n, _) => n
  | none => "ERR(0x" ++ Hex.upper 2 s.code.toNat ++ ")"

/-- The status's explanation; unknown ones are an `unknown error`. -/
def message (s : Status) : String :=
  match s.describe? with
  | some (_, m) => m
  | none => "unknown error"

/-- The text of a non-OK status reported as an error. -/
def errorText (s : Status) : String := "v4link: " ++ s.name ++ ": " ++ s.message

end Status

/-! ### Encoding and decoding -/

/-- Why a frame could not be built or read. -/
inductive FrameError where
  /-- The body (with the status byte of a reply) is over `maxPayload` bytes. -/
  | payloadTooLarge (size : Nat)
  /-- Fewer bytes than the smallest frame. -/
  | short (size : Nat)
  /-- The first byte is not the marker. -/
  | badMarker (first : UInt8)
  /-- The length field disagrees with the bytes present (both as `LEN` counts them). -/
  | lengthMismatch (declared carried : Nat)
  /-- The checksum byte is wrong. -/
  | checksum
deriving DecidableEq, Repr

/-- The text of a frame error. -/
def FrameError.message : FrameError → String
  | .payloadTooLarge n => s!"payload exceeds maximum frame size: {n} > {maxPayload}"
  | .short n => s!"frame shorter than minimum size: {n} bytes"
  | .badMarker b => "frame does not start with STX: got 0x" ++ Hex.upper 2 b.toNat
  | .lengthMismatch d c =>
    s!"frame length field does not match frame size: declared {d}, frame carries {c}"
  | .checksum => "frame checksum mismatch"

/-- Requests and replies differ only in what the length field counts. -/
inductive Direction where
  | request
  | reply
deriving DecidableEq, Repr

/-- How many bytes the length field counts beyond the body: the status byte of a reply. -/
def Direction.bias : Direction → Nat
  | .request => 0
  | .reply => 1

/-- The frame around `body` with slot byte `slot` and length field `len`. -/
def wrap (slot : UInt8) (len : Nat) (body : List UInt8) : List UInt8 :=
  let inner := UInt8.ofNat len :: UInt8.ofNat (len / 256) :: slot :: body
  stx :: (inner ++ [Crc.crc8 inner])

/-- Frames `body` in this direction; the length field (body plus bias) may not pass
`maxPayload`. -/
def Direction.encode (d : Direction) (slot : UInt8) (body : List UInt8) :
    Except FrameError (List UInt8) :=
  let n := body.length + d.bias
  if n > maxPayload then .error (.payloadTooLarge n) else .ok (wrap slot n body)

/-- Whether a frame of at least five bytes ends in the checksum of its inner bytes. -/
def verifyCrc (f : List UInt8) : Bool :=
  if f.length < minFrameSize then false
  else f.getLast? == some (Crc.crc8 ((f.drop 1).dropLast))

/-- Reads a frame in this direction into its slot byte and body. -/
def Direction.decode (d : Direction) (f : List UInt8) : Except FrameError (UInt8 × List UInt8) :=
  match f with
  | m :: lo :: hi :: slot :: rest@(_ :: _) =>
    if m ≠ stx then .error (.badMarker m)
    else
      let declared := lo.toNat + 256 * hi.toNat
      let body := f.length - minFrameSize
      if declared ≠ body + d.bias then .error (.lengthMismatch declared (body + d.bias))
      else if !verifyCrc f then .error .checksum
      else .ok (slot, rest.dropLast)
  | _ => .error (.short f.length)

/-- A request: a command and its payload. -/
structure Frame where
  command : Command
  payload : List UInt8
deriving DecidableEq, Repr

/-- A reply: a status and the bytes that follow it. -/
structure Reply where
  status : Status
  extra : List UInt8
deriving DecidableEq, Repr

/-- The bytes of a request frame. -/
def Frame.encode (f : Frame) : Except FrameError (List UInt8) :=
  Direction.request.encode f.command.code f.payload

/-- The bytes of a reply frame. -/
def Reply.encode (r : Reply) : Except FrameError (List UInt8) :=
  Direction.reply.encode r.status.code r.extra

/-- Appends a frame to `dst`: the marker, the length field, the slot byte, the body, and the
checksum of every byte of the result after its first. -/
def appendFrame (dst : List UInt8) (slot : UInt8) (len : Nat) (body : List UInt8) : List UInt8 :=
  let dst := dst ++ [stx, UInt8.ofNat len, UInt8.ofNat (len / 256), slot] ++ body
  dst ++ [Crc.crc8 (dst.drop 1)]

/-- The bytes of a reply frame written into a buffer kept from an earlier reply: the buffer is
cut to nothing first. -/
def Reply.appendTo (dst : List UInt8) (r : Reply) : Except FrameError (List UInt8) :=
  let n := 1 + r.extra.length
  if n > maxPayload then .error (.payloadTooLarge n)
  else .ok (appendFrame (dst.take 0) r.status.code n r.extra)

/-- Reads a request frame. -/
def Frame.decode (bs : List UInt8) : Except FrameError Frame :=
  (Direction.request.decode bs).map fun (c, p) => ⟨⟨c⟩, p⟩

/-- Reads a reply frame. -/
def Reply.decode (bs : List UInt8) : Except FrameError Reply :=
  (Direction.reply.decode bs).map fun (s, e) => ⟨⟨s⟩, e⟩

end StackLink
