import StackLink.Wire.Receiver
import StackLink.Bytes

/-!
# The host side of the link

The host sends one request frame and reads until its reply arrives. Reading is
split however the connection delivers it (`Reads`): the bytes of every read go
through a reply receiver, and the first complete frame is the reply; bytes
after it in the same read are dropped. A length over a frame's payload ends the
wait with an oversize error, and a read that fails before any frame ends it with
that failure. The reply must decode as a reply frame, and a non-OK status is an
error that still carries the reply.

Typed requests read their reply payloads: an upload's word indices, the two
stack windows, a memory window and a word's name and code. A payload of the
wrong shape is a malformed response.
-/

namespace StackLink

/-- How a read failed. -/
inductive ReadEnd where
  /-- The device closed the connection. -/
  | eof
  /-- Nothing arrived before the deadline. -/
  | deadline
  /-- Any other failure, with its text. -/
  | failed (reason : String)
deriving DecidableEq, Repr

/-- The text of a read failure. -/
def ReadEnd.message : ReadEnd → String
  | .eof => "EOF"
  | .deadline => "context deadline exceeded"
  | .failed r => r

/-- What the reads of one wait return: some bytes each, the last with a failure. -/
inductive Reads where
  | more (bytes : List UInt8) (rest : Reads)
  | last (bytes : List UInt8) (failure : ReadEnd)
deriving DecidableEq, Repr

/-- How a reply payload fails to have the shape its request expects. -/
inductive Malformed where
  | execReply (length : Nat)
  | missingDepth
  | shortStack (count available : Nat)
  | trailing (count : Nat)
  | tooMuchMemory (asked got : Nat)
  | wordReply (length : Nat)
  | codeLength (declared carried : Nat)
deriving DecidableEq, Repr

/-- The text of a malformed reply. -/
def Malformed.message : Malformed → String
  | .execReply n => s!"EXEC reply of {n} bytes"
  | .missingDepth => "missing stack depth"
  | .shortStack n a => s!"stack of {n} values in {a} bytes"
  | .trailing n => s!"{n} trailing bytes in QUERY_STACK reply"
  | .tooMuchMemory a g => s!"asked for {a} bytes, got {g}"
  | .wordReply n => s!"QUERY_WORD reply of {n} bytes"
  | .codeLength d c => s!"code length {d}, carried {c}"

/-- Why a request got no usable reply. -/
inductive ClientError where
  /-- The request could not be framed. -/
  | request (e : FrameError)
  /-- Writing the request failed. -/
  | send (cmd : Command) (reason : String)
  /-- The reply's length field is over a frame's payload. -/
  | oversize (length : Nat)
  /-- No reply before the deadline. -/
  | deadline (cmd : Command)
  /-- Reading failed before a reply arrived. -/
  | receive (cmd : Command) (failure : ReadEnd)
  /-- The reply frame does not decode. -/
  | badReply (cmd : Command) (e : FrameError)
  /-- The device answered with a non-OK status. -/
  | status (reply : Reply)
  | malformed (m : Malformed)
deriving DecidableEq, Repr

/-- The text of a client error. -/
def ClientError.message : ClientError → String
  | .request e => e.message
  | .send c r => s!"client: send {c.name}: {r}"
  | .oversize n => s!"client: response exceeds frame size: {n} bytes"
  | .deadline c => s!"client: {c.name}: context deadline exceeded"
  | .receive c f => s!"client: receive {c.name}: {f.message}"
  | .badReply c e => s!"client: {c.name} response: {e.message}"
  | .status r => r.status.errorText
  | .malformed m => "client: malformed response: " ++ m.message

namespace Client

/-- What the reply receiver found in a wait. -/
inductive Found where
  | frame (bytes : List UInt8)
  | oversize (length : Nat)
deriving DecidableEq, Repr

/-- Feeds one read's bytes until a frame or an oversize length appears; the rest of the read
is dropped. -/
def scan (rx : Receiver) : List UInt8 → Receiver × Option Found
  | [] => (rx, none)
  | b :: bs =>
    match rx.step b with
    | (rx, some (.frame f)) => (rx, some (.frame f))
    | (rx, some (.oversize n)) => (rx, some (.oversize n))
    | (rx, none) => scan rx bs

/-- Waits for the reply to `cmd`: returns the reply frame, or why none came, and the reads
not yet taken. -/
def await (cmd : Command) (rx : Receiver) : Reads → Except ClientError (List UInt8) × Option Reads
  | .more bytes rest =>
    match scan rx bytes with
    | (_, some (.frame f)) => (.ok f, some rest)
    | (_, some (.oversize n)) => (.error (.oversize n), some rest)
    | (rx, none) => await cmd rx rest
  | .last bytes failure =>
    match scan rx bytes with
    | (_, some (.frame f)) => (.ok f, none)
    | _ =>
      match failure with
      | .deadline => (.error (.deadline cmd), none)
      | f => (.error (.receive cmd f), none)

/-- A receiver for replies, ready for a new one. -/
def replyReceiver : Receiver := Receiver.new maxPayload .reply

/-- Reads a reply frame: it must decode, and a non-OK status is an error carrying it. -/
def decodeReply (cmd : Command) (f : List UInt8) : Except ClientError Reply :=
  match Reply.decode f with
  | .error e => .error (.badReply cmd e)
  | .ok r => if r.status = Status.ok then .ok r else .error (.status r)

/-- Waits for and reads the reply to `cmd`. -/
def receive (cmd : Command) (reads : Reads) : Except ClientError Reply × Option Reads :=
  match await cmd replyReceiver reads with
  | (.ok f, rest) => (decodeReply cmd f, rest)
  | (.error e, rest) => (.error e, rest)

/-- The word indices of an upload reply: a count and that many 16-bit indices, exactly. -/
def parseIndices (p : List UInt8) : Except ClientError (List UInt16) :=
  match p with
  | n :: rest =>
    if rest.length = 2 * n.toNat then
      .ok ((List.range n.toNat).map fun i => UInt16.ofNat ((Bytes.readLE16 rest (2 * i)).getD 0))
    else .error (.malformed (.execReply p.length))
  | [] => .error (.malformed (.execReply 0))

/-- One stack window of a stack reply, and the bytes after it. -/
def parseStack (p : List UInt8) : Except ClientError (List Int32 × List UInt8) :=
  match p with
  | [] => .error (.malformed .missingDepth)
  | n :: rest =>
    if rest.length < 4 * n.toNat then .error (.malformed (.shortStack n.toNat rest.length))
    else .ok ((List.range n.toNat).map (fun i => Int32.ofNat ((Bytes.readLE32 rest (4 * i)).getD 0)),
      rest.drop (4 * n.toNat))

/-- Both windows of a stack reply, bottom first, with nothing after them. -/
def parseStacks (p : List UInt8) : Except ClientError (List Int32 × List Int32) := do
  let (data, rest) ← parseStack p
  let (ret, rest) ← parseStack rest
  if rest.isEmpty then return (data, ret) else throw (.malformed (.trailing rest.length))

/-- A memory reply: never more bytes than asked for. -/
def parseMemory (asked : Nat) (p : List UInt8) : Except ClientError (List UInt8) :=
  if p.length > asked then .error (.malformed (.tooMuchMemory asked p.length)) else .ok p

/-- A word reply: the name's length and bytes, the code's 16-bit length and exactly that
many code bytes. -/
def parseWord (p : List UInt8) : Except ClientError (List UInt8 × List UInt8) :=
  match p with
  | n :: rest =>
    if p.length < 1 + n.toNat + 2 then .error (.malformed (.wordReply p.length))
    else
      let name := rest.take n.toNat
      let q := rest.drop n.toNat
      let declared := (Bytes.readLE16 q 0).getD 0
      if q.length - 2 ≠ declared then .error (.malformed (.codeLength declared (q.length - 2)))
      else .ok (name, q.drop 2)
  | [] => .error (.malformed (.wordReply 0))

/-- The payload of a memory query: a 32-bit address and a 16-bit length. -/
def memoryRequest (addr : UInt32) (n : UInt16) : List UInt8 :=
  Bytes.le32 addr.toNat ++ Bytes.le16 n.toNat

/-- The payload of a word query: a 16-bit index. -/
def wordRequest (idx : UInt16) : List UInt8 := Bytes.le16 idx.toNat

end Client

end StackLink
