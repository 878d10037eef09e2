import StackLink.Host.Client
import StackLink.Device.Link

/-!
# A connection to a simulated device

The host talks to a device link over a byte pipe. What the host writes is fed to
the link at once; the link's replies wait in the pipe until the host reads them,
at most 256 bytes per read, and a read of an empty pipe fails as the pipe's
`idle` says (end of stream for an in-process pipe, a deadline for a serial line
nobody closes).

A request is written, then read back with `Client.receive`; reply bytes the
wait did not read stay in the pipe for the next request.
-/

namespace StackLink

/-- A byte string cut into pieces of `n` bytes, the last one shorter. -/
def chunksOf (n : Nat) (bs : List UInt8) : List (List UInt8) :=
  go bs.length bs
where
  /-- Cuts with `fuel` pieces at most; the length of the string is fuel enough. -/
  go : Nat → List UInt8 → List (List UInt8)
    | 0, _ => []
    | _, [] => []
    | k + 1, bs => bs.take n :: go k (bs.drop n)

/-- All bytes the reads would return. -/
def Reads.bytes : Reads → List UInt8
  | .more bs rest => bs ++ rest.bytes
  | .last bs _ => bs

/-- The reads of `pending` in pieces of at most `n` bytes, then a failing empty read. -/
def Reads.ofPending (n : Nat) (pending : List UInt8) (idle : ReadEnd) : Reads :=
  (chunksOf n pending).foldr .more (.last [] idle)

/-- The host end of a pipe to a device link. -/
structure Connection where
  link : Link
  /-- Reply bytes not read yet. -/
  pending : List UInt8 := []
  /-- What a read of an empty pipe finds. -/
  idle : ReadEnd := .eof
deriving Repr

namespace Connection

/-- How many bytes the host reads at a time. -/
def readSize : Nat := 256

/-- Writes bytes to the device: the link takes them and its replies join the pipe. -/
def deliver {M : Type → Type} [Monad M] (sys : Option (SysHandler M)) (c : Connection)
    (bytes : List UInt8) : M Connection := do
  let (l, o) ← c.link.write sys bytes
  pure { c with link := l, pending := c.pending ++ o.replies.flatten }

/-- Reads the reply to `cmd` from the pipe. -/
def receive (c : Connection) (cmd : Command) : Connection × Except ClientError Reply :=
  let (r, rest) := Client.receive cmd (Reads.ofPending readSize c.pending c.idle)
  ({ c with pending := (rest.map Reads.bytes).getD [] }, r)

/-- Sends a request and reads its reply; also returns the bytes written. -/
def request {M : Type → Type} [Monad M] (sys : Option (SysHandler M)) (c : Connection)
    (cmd : Command) (payload : List UInt8) :
    M (Connection × Except ClientError Reply × List UInt8) :=
  match (Frame.mk cmd payload).encode with
  | .error e => pure (c, .error (.request e), [])
  | .ok req => do
    let c ← c.deliver sys req
    let (c, r) := c.receive cmd
    pure (c, r, req)

end Connection

end StackLink
