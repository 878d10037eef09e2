import StackLink.Host.Disk
import StackLink.Host.Connection
import StackLink.Device.Server
import StackLink.Net.Address

/-!
# The host machine

What a program sees of the machine it runs on: a working directory, a home
directory (or none), a wall clock, a disk, and the serial lines it can open.

A device is reached by a target: `tcp://host:port`, or a serial line given by
path, with or without `serial://`. This host has no route to any network, so a
TCP target whose address reads well fails to connect as unreachable. A serial
line is a simulated device, served one connection at a time, or a line nobody
answers; any other path fails to open as a file that is no terminal, as a
directory, or as a path that does not resolve.

Over a simulated device a request is fed to the device's worker, and the reply
is read from what the worker wrote back; a request that gets no reply, or goes
to a line nobody answers, runs into the deadline.
-/

namespace StackLink

/-- A serial line the host can open. -/
inductive Line where
  /-- A simulated device and the system calls its machine makes. -/
  | simulator (server : Server) (sys : Option (SysHandler Id))
  /-- A line that nobody answers. -/
  | silent

/-- The machine a program runs on. -/
structure World where
  cwd : String
  home : Option String
  /-- The wall clock, in nanoseconds since 1970. -/
  clock : Int
  disk : Disk
  /-- The serial lines, by absolute path. -/
  lines : List (String × Line) := []

/-- Why a TCP connection failed. -/
inductive NetFault where
  | address (e : Address.AddressError)
  | unknownHost (host : String)
  /-- No route to the address, written as it was resolved. -/
  | unreachable (addr : String)
  deriving DecidableEq, Repr

/-- Why a serial line could not be opened. -/
inductive LineFault where
  | file (f : FileFault)
  /-- The path is a file but no terminal. -/
  | notTerminal
  deriving DecidableEq, Repr

/-- Why a device could not be reached. -/
inductive DialError where
  | tcp (addr : String) (f : NetFault)
  | serial (name : String) (f : LineFault)
  deriving DecidableEq, Repr

/-- The error's text. -/
def DialError.message : DialError → String
  | .tcp a f => "client: dial " ++ a ++ ": " ++ match f with
    | .address e => "dial tcp: " ++ e.message
    | .unknownHost h => "dial tcp: lookup " ++ h ++ ": no such host"
    | .unreachable r => "dial tcp " ++ r ++ ": connect: network is unreachable"
  | .serial n f => "client: open " ++ n ++ ": " ++ match f with
    | .file f => f.message
    | .notTerminal => "Invalid serial port: error getting term settings: inappropriate ioctl for device"

/-- Whether a host is written as an IPv4 address: four decimal numbers up to 255, without
leading zeros. -/
def isIPv4 (h : String) : Bool :=
  let parts := h.splitOn "."
  parts.length = 4 && parts.all fun p =>
    !p.isEmpty && p.length ≤ 3 && p.all Char.isDigit && (p.length = 1 || !p.startsWith "0") &&
      p.toNat! ≤ 255

/-- The address a host and port resolve to, when they do: an address stands for itself,
`localhost` is the loopback address and the empty host the local system. -/
def resolve (host : String) (port : Nat) : Option String :=
  if host = "localhost" then some (Address.join "127.0.0.1" port)
  else if host.isEmpty || isIPv4 host || host.contains ':' then some (Address.join host port)
  else none

/-- An open connection to a device: the path of its serial line. -/
structure Conn where
  line : String
  deriving DecidableEq, Repr

namespace World

/-- The serial line at a path. -/
def line? (w : World) (path : String) : Option Line := w.lines.lookup (Path.abs w.cwd path)

/-- Replaces the serial line at a path. -/
def setLine (w : World) (path : String) (l : Line) : World :=
  { w with lines := w.lines.map fun (p, old) => (p, if p = path then l else old) }

/-- A simulated device whose connection starts: the device is reset when its server says
so. -/
def connect : Line → Line
  | .simulator s sys =>
    if s.options.resetOnConnect then
      match s.worker.reset with
      | .ok wk => .simulator { s with worker := wk } sys
      | .error _ => .simulator s sys
    else .simulator s sys
  | .silent => .silent

/-- Reaches the device a target names. -/
def dial (w : World) (target : String) : World × Except DialError Conn :=
  if target.startsWith "tcp://" then
    let addr := (target.drop 6).toString
    let fault := match (if addr.isEmpty then .ok ("", 0) else Address.parse addr) with
      | .error e => NetFault.address e
      | .ok (h, p) => match resolve h p with
        | some r => .unreachable r
        | none => .unknownHost h
    (w, .error (.tcp addr fault))
  else
    let name := if target.startsWith "serial://" then (target.drop 9).toString else target
    let p := Path.abs w.cwd name
    match w.lines.lookup p with
    | some l => (w.setLine p (connect l), .ok ⟨p⟩)
    | none =>
      let fault := if (w.disk.file? p).isSome then LineFault.notTerminal
        else if w.disk.isDir p then .file .isDirectory
        else .file (w.disk.walkFault p)
      (w, .error (.serial name fault))

/-- Sends a request over a connection and reads its reply. -/
def request (w : World) (c : Conn) (cmd : Command) (payload : List UInt8) :
    World × Except ClientError Reply :=
  match (Frame.mk cmd payload).encode with
  | .error e => (w, .error (.request e))
  | .ok req =>
    match w.lines.lookup c.line with
    | some (.simulator s sys) =>
      let (wk, d) := s.worker.feed sys req
      let s := { s with worker := wk }
      let l := if d.error.isSome then connect (.simulator s sys) else .simulator s sys
      (w.setLine c.line l, (Client.receive cmd (Reads.ofPending Connection.readSize d.replies.flatten .deadline)).1)
    | _ => (w, .error (.deadline cmd))

end World

end StackLink
