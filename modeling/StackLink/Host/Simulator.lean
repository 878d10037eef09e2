import StackLink.Host.Configuration
import StackLink.Shell.Options

/-!
# The simulator program

The simulator serves a simulated device: a machine behind a link, run by a
worker, behind a server. It reads its options (a fault or a request for help
prints the usage and stops the reading, but not the program), then the
configuration, which the options override: the listening address when given,
the log verbosity when not negative, the memory size when positive, and
relocation when turned off. A configuration that cannot be read, or is invalid,
ends it with an error.

It then prints a two-line banner with the address and the device's sizes, and
listens; an address that cannot be listened on ends it with an error after the
banner.
-/

namespace StackLink.Simulator

open Shell

/-- The simulator's options. -/
def options : List Opt :=
  [⟨"config", .text, "Directory holding v4link.toml (default: search upward)", .text ""⟩,
   ⟨"listen", .text, "Listen address (default from [sim] listen)", .text ""⟩,
   ⟨"v", .int, "Log verbosity (default from [log] verbosity)", .int (-1)⟩,
   ⟨"reset-on-connect", .switch, "Reset the VM whenever a host connects", .switch false⟩,
   ⟨"no-relocate", .switch, "Do not relocate CALLs in uploaded containers", .switch false⟩,
   ⟨"mem", .int, "VM memory size in bytes (default from [vm] memory-size)", .int 0⟩]

/-- The option of a name. -/
def option (name : String) : Opt :=
  (options.find? (·.name == name)).getD ⟨name, .text, "", .text ""⟩

/-- The usage text. -/
def usage : String :=
  "Usage: v4sim [options]\n\nServes a simulated V4 device over TCP.\n\nOptions:\n" ++ optionUsages options ++
    "\nExamples:\n  v4sim                        # Serve on :7401\n" ++
    "  v4sim -listen :9000 -v 2     # Debug logging on :9000\n" ++
    "  v4link --port tcp://localhost:7401 ping\n"

/-- What starting the simulator did: what it printed on each stream, the device it
serves and where, if it got that far, and whether it ended with an error. -/
structure Start where
  out : String := ""
  err : String := ""
  serving : Option (Server × String) := none
  failed : Bool := false

/-- The text value of an option. -/
def textOf (r : OptionsRead) (name : String) : String :=
  match r.get (option name) with | .text s => s | _ => ""

/-- The number value of an option. -/
def intOf (r : OptionsRead) (name : String) : Int :=
  match r.get (option name) with | .int n => n | _ => 0

/-- Whether a switch is on. -/
def isOn (r : OptionsRead) (name : String) : Bool :=
  r.get (option name) == .switch true

/-- Starts the simulator with a command line, in a world: the world after it and what it
did. -/
def start (w : World) (args : List String) : World × Start :=
  let r := readOptions options args
  let err := match r.stop with
    | some .help => usage
    | some (.fault e) => e.message ++ "\n" ++ usage
    | none => ""
  match w.manifest (textOf r "config") with
  | .error e => (w, { err := err ++ "Error: " ++ e.message ++ "\n", failed := true })
  | .ok found =>
    let m := found.getD Manifest.default
    let listen := textOf r "listen"
    let m := if listen.isEmpty then m else { m with listen }
    let m := if intOf r "v" ≥ 0 then { m with verbosity := intOf r "v" } else m
    let m := if intOf r "mem" > 0 then { m with vm := { m.vm with memorySize := intOf r "mem" } } else m
    let m := if isOn r "no-relocate" then { m with link := { m.link with relocate := some false } } else m
    match m.validate with
    | some reasons => (w, { err := err ++ "Error: invalid config: " ++ reasons ++ "\n", failed := true })
    | none =>
      let w := if !m.logFile.isEmpty && m.verbosity > -4 then { w with disk := w.disk.startLog w.cwd m.logFile }
        else w
      let q := m.machine
      let machine := Machine.new (MachineConfig.ofRequested q.memorySize q.maxWords q.stackDepth q.maxCallDepth q.maxSteps)
      let link := Link.new machine m.linkConfig
      let server := Server.new ⟨link, false⟩ { resetOnConnect := isOn r "reset-on-connect" }
      let lc := link.config
      let out := s!"V4 simulator listening on {m.listen}\n" ++
        s!"  buffer {lc.bufferSize} bytes, {machine.config.maxWords} words, {machine.mem.size} bytes of memory, relocation {lc.relocate}\n"
      match server.listen m.listen with
      | .refused e => (w, { out, err := err ++ "Error: " ++ Listening.refusal e ++ "\n", failed := true })
      | _ => (w, { out, err, serving := some (server, m.listen) })

end StackLink.Simulator
