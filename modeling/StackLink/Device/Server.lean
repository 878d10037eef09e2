import StackLink.Device.Link
import StackLink.Net.Address

/-!
# Serving a link over connections

A *worker* owns one link and serves requests on it one at a time, until it is
stopped. Feeding it bytes delivers the link's reply frames; a system call that
aborts inside the link is caught, reported as a panic of the link, and leaves
the link as the abort found it. A stopped worker refuses every request. Calls
from several callers wait in one queue and are served one at a time, in the
order the worker takes them; while a call runs, the link's replies go to the
sink that call brought.

A *server* hands the bytes of each connection to its worker. One connection is
served like this:

1. a closed server closes the connection at once;
2. with `resetOnConnect`, the worker is reset first, and a refusal ends the
   connection;
3. then the server reads, at most a read buffer at a time, arming an idle
   deadline before every read when the connection takes deadlines and the idle
   timeout is positive; every non-empty read is fed to the worker, whose replies
   are written back;
4. the first failed feed, the end of the stream or a read error ends it, and
   the connection is closed if it can be.

Serving a listener takes its connections in turn. Accept faults that are
timeouts are skipped; the first other fault is returned. A listener that runs
dry is closed, which ends the serving with the error of a closed connection,
unless the server itself was closed, which ends it with `server: closed`.
-/

namespace StackLink

/-- Why a worker refused or failed a request. -/
inductive WorkerError where
  | stopped
  /-- The link aborted on a system call, for this reason. -/
  | panicked (reason : String)
  deriving DecidableEq, Repr

/-- The error's text. -/
def WorkerError.message : WorkerError → String
  | .stopped => "server: worker stopped"
  | .panicked r => "server: link panic: " ++ r

/-- A link served one request at a time, until it is stopped. -/
structure Worker where
  link : Link
  stopped : Bool := false
  deriving Repr

/-- What feeding bytes to a worker gave: the reply frames delivered, in order, and the
error that ended the feeding, if any. -/
structure Delivery where
  replies : List (List UInt8) := []
  error : Option WorkerError := none
  deriving DecidableEq, Repr

namespace Worker

/-- The settings of the worker's link. -/
def config (w : Worker) : LinkConfig := w.link.config

/-- Feeds bytes to the link. A stopped worker takes none; an aborted system call stops the
feeding after the replies delivered before it. -/
def feed {M : Type → Type} [Monad M] (sys : Option (SysHandler M)) (w : Worker)
    (bytes : List UInt8) : M (Worker × Delivery) :=
  if w.stopped then pure (w, { error := some .stopped })
  else do
    let (l, o) ← w.link.write sys bytes
    pure ({ w with link := l }, ⟨o.replies, o.abort.map .panicked⟩)

/-- Resets the link, unless the worker is stopped. -/
def reset (w : Worker) : Except WorkerError Worker :=
  if w.stopped then .error .stopped else .ok { w with link := w.link.reset }

/-- Stops the worker for good. -/
def stop (w : Worker) : Worker := { w with stopped := true }

end Worker

/-- How a server serves connections: the largest read, the idle timeout in nanoseconds
(none when not positive), and whether each connection starts with a reset. -/
structure ServerOptions where
  readBufferSize : Nat := 1024
  idleTimeout : Int := 0
  resetOnConnect : Bool := false
  deriving DecidableEq, Repr

/-- Server options from requested values; a read buffer that is not positive is 1024. -/
def ServerOptions.make (readBufferSize idleTimeout : Int) (resetOnConnect : Bool) :
    ServerOptions :=
  ⟨if readBufferSize ≤ 0 then 1024 else readBufferSize.toNat, idleTimeout, resetOnConnect⟩

/-- A server: its worker, its options and whether it has been closed. -/
structure Server where
  worker : Worker
  options : ServerOptions := {}
  closed : Bool := false
  deriving Repr

/-- A connection as the server sees it: the data each read hands out, the read error that
ends it (none for the end of the stream), and whether it can be closed and given read
deadlines. -/
structure Stream where
  chunks : List (List UInt8)
  ending : Option String := none
  closable : Bool := true
  deriving DecidableEq, Repr

/-- What serving one connection did: the bytes written back, whether the connection was
closed, and how many read deadlines were set. -/
structure Session where
  written : List UInt8 := []
  closed : Bool := false
  deadlines : Nat := 0
  deriving DecidableEq, Repr

/-- Cuts bytes into reads of at most `n` bytes; nothing is still one read, of nothing. -/
def chop (n : Nat) (bs : List UInt8) : List (List UInt8) :=
  go bs.length bs
where
  go : Nat → List UInt8 → List (List UInt8)
    | 0, bs => [bs]
    | k + 1, bs => if bs.length ≤ n then [bs] else bs.take n :: go k (bs.drop n)

/-- The reads a stream hands out through a buffer of `n` bytes, before its end. -/
def Stream.reads (c : Stream) (n : Nat) : List (List UInt8) :=
  c.chunks.flatMap (chop n)

/-- Feeds reads to a worker until they run out or a feed fails: the worker, the bytes
written back and how many reads were made, counting the last one, which finds the end. -/
def pump {M : Type → Type} [Monad M] (sys : Option (SysHandler M)) (w : Worker) :
    List (List UInt8) → M (Worker × List UInt8 × Nat)
  | [] => pure (w, [], 1)
  | r :: rs => do
    if r.isEmpty then
      let (w, out, n) ← pump sys w rs
      pure (w, out, n + 1)
    else
      let (w, d) ← w.feed sys r
      let here := d.replies.flatten
      match d.error with
      | some _ => pure (w, here, 1)
      | none =>
        let (w, out, n) ← pump sys w rs
        pure (w, here ++ out, n + 1)

/-- Why serving a listener ended. -/
inductive ServeError where
  | serverClosed
  /-- The listener failed to accept, with this text. -/
  | accept (text : String)
  | listenerClosed
  deriving DecidableEq, Repr

/-- The error's text. -/
def ServeError.message : ServeError → String
  | .serverClosed => "server: closed"
  | .accept t => t
  | .listenerClosed => "use of closed network connection"

/-- A fault of a listener's accept: a timeout, which is tried again, or a failure. -/
inductive AcceptFault where
  | timeout
  | failed (text : String)
  deriving DecidableEq, Repr

/-- A scripted listener: the connections it hands out in turn, the accept faults after
them, and whether the server is closed once they are done, rather than the listener. -/
structure Listener where
  conns : List Stream
  faults : List AcceptFault := []
  closesServer : Bool := false
  deriving DecidableEq, Repr

/-- The first accept fault that is not a timeout. -/
def firstFailure : List AcceptFault → Option String
  | [] => none
  | .timeout :: fs => firstFailure fs
  | .failed t :: _ => some t

/-- How a request to listen on an address ended: the address is refused, the server is
closed, or it serves there. -/
inductive Listening where
  | refused (e : Address.AddressError)
  | serverClosed
  | serving (host : String) (port : Nat)
  deriving DecidableEq, Repr

namespace Server

/-- A new server over a worker. -/
def new (w : Worker) (options : ServerOptions := {}) : Server := ⟨w, options, false⟩

/-- Serves one connection. -/
def serveConn {M : Type → Type} [Monad M] (sys : Option (SysHandler M)) (s : Server)
    (c : Stream) : M (Server × Session) :=
  let ended : Session := { closed := c.closable }
  if s.closed then pure (s, ended)
  else
    let opened := if s.options.resetOnConnect then s.worker.reset else .ok s.worker
    match opened with
    | .error _ => pure (s, ended)
    | .ok w => do
      let (w, written, reads) ← pump sys w (c.reads s.options.readBufferSize)
      let armed := c.closable && decide (0 < s.options.idleTimeout)
      pure ({ s with worker := w }, { ended with written, deadlines := if armed then reads else 0 })

/-- Serves connections in turn. -/
def serveAll {M : Type → Type} [Monad M] (sys : Option (SysHandler M)) (s : Server) :
    List Stream → M (Server × List Session)
  | [] => pure (s, [])
  | c :: cs => do
    let (s, r) ← s.serveConn sys c
    let (s, rs) ← s.serveAll sys cs
    pure (s, r :: rs)

/-- Closes the server: it serves nothing from now on. -/
def close (s : Server) : Server := { s with closed := true }

/-- Serves a listener until it fails or is closed. -/
def serve {M : Type → Type} [Monad M] (sys : Option (SysHandler M)) (s : Server)
    (l : Listener) : M (Server × List Session × ServeError) :=
  if s.closed then pure (s, [], .serverClosed)
  else do
    let (s, sessions) ← s.serveAll sys l.conns
    match firstFailure l.faults with
    | some t => pure (s, sessions, .accept t)
    | none =>
      if l.closesServer then pure (s.close, sessions, .serverClosed)
      else pure (s, sessions, .listenerClosed)

/-- Listens on a TCP address; the empty address is every interface, on a port of the
system's choice. -/
def listen (s : Server) (addr : String) : Listening :=
  match (if addr.isEmpty then .ok ("", 0) else Address.parse addr) with
  | .error e => .refused e
  | .ok (h, p) => if s.closed then .serverClosed else .serving h p

end Server

/-- The error text of a refused listening address. -/
def Listening.refusal (e : Address.AddressError) : String := "listen tcp: " ++ e.message

end StackLink
