import StackLink.Host.Tool.Commands
import StackLink.Host.Configuration
import StackLink.Host.Reports
import StackLink.Config.Manifest
import StackLink.Code.Module

/-!
# Running the host tool

A command line is read against the command tree; a command that runs first loads
its settings, then acts.

**Settings.** The configuration is `v4link.toml` in the directory `--config`
names, or else the first one found walking up from the working directory, or
else the defaults; it must then be valid. A relative symbol database in a file
is taken from the file's directory. The device is `--port`, else the
configuration's serial port, else the simulator's listening address; the name
symbols are recorded under is `--device`, else the target. A log file in the
configuration is started unless logging is off.

**Symbols.** The symbol database is `--symbols`, else the configuration's, with
a leading `~` read as the home directory; `:memory:` is a database that lasts
one command. Opening one makes its directory and the database as needed. An
upload records its words only after the device accepted it, pairing the
indices the device assigned with the words sent; a reset clears the device's
symbols only after the device reset. Neither fails when the database cannot be
opened.

**Errors.** An error names what failed the way each command wraps it: the
command and its file or target, then the cause.
-/

namespace StackLink.Tool

open Shell

/-- Why the symbol database could not be opened. -/
inductive StoreError where
  /-- The path starts with `~` and there is no home directory. -/
  | noHome (path : String)
  | directory (e : FileError)
  /-- A directory stands where the database should be. -/
  | unusable
  deriving DecidableEq, Repr

/-- The error's text. -/
def StoreError.message : StoreError → String
  | .noHome p => "cannot expand " ++ p ++ ": $HOME is not defined"
  | .directory e => "creating database directory: " ++ e.message
  | .unusable => "creating table: unable to open database file"

/-- Why a command failed. -/
inductive ToolError where
  | command (e : CommandError)
  | config (e : LoadError)
  | invalid (reasons : String)
  | dial (e : DialError)
  | client (e : ClientError)
  | file (e : FileError)
  /-- A module file that does not read, with its path. -/
  | module (path : String) (e : ModuleError)
  | container (e : ContainerError)
  /-- A container problem of a named file. -/
  | inFile (path : String) (e : ContainerError)
  /-- A bare upload that was given other than one index. -/
  | indicesForOne (given : Nat)
  /-- A container upload given a wrong number of indices. -/
  | indicesFor (given words : Nat)
  | store (e : StoreError)
  /-- A number argument that does not read: what it is, the text, and why. -/
  | number (what text : String) (e : Numeral.NumError)
  /-- A failure while doing something. -/
  | during (what : String) (e : ToolError)

/-- The error's text. -/
def ToolError.message : ToolError → String
  | .command e => e.message
  | .config e => "failed to load config: " ++ e.message
  | .invalid r => "invalid config: " ++ r
  | .dial e => e.message
  | .client e => e.message
  | .file e => e.message
  | .module p e => p ++ ": " ++ e.message
  | .container e => e.message
  | .inFile p e => p ++ ": " ++ e.message
  | .indicesForOne n => s!"device assigned {n} indices to one word"
  | .indicesFor n k => s!"device assigned {n} indices to {k} words"
  | .store e => e.message
  | .number w t e => "invalid " ++ w ++ " " ++ Quote.text t ++ ": " ++ e.message
  | .during w e => w ++ ": " ++ e.message

/-- The world while a command runs, and what it has printed. -/
structure Console where
  world : World
  out : String := ""

/-- A step of a command: it may fail, and it changes the world and prints. -/
abbrev Run := ExceptT ToolError (StateM Console)

/-- Prints text. -/
def emit (s : String) : Run Unit := modify fun c => { c with out := c.out ++ s }

/-- The world as it is now. -/
def world : Run World := return (← get).world

/-- Changes the world. -/
def setWorld (w : World) : Run Unit := modify fun c => { c with world := w }

/-- The value of a result, or its error as a command's error. -/
def must {ε α : Type} (f : ε → ToolError) : Except ε α → Run α
  | .ok a => pure a
  | .error e => throw (f e)

/-! ### Settings -/

/-- What a command works with: the configuration, the device and how to print. -/
structure Settings where
  manifest : Manifest
  target : String
  device : String
  style : Style
  /-- The symbol database given on the command line, if any. -/
  symbols : String

/-- A text flag's value. -/
def textOf (line : Parsed) (name : String) : String :=
  match line.get (globalFlag name) with
  | .text s => s
  | _ => ""

/-- The target of the simulator listening on an address: a wildcard host is reached as
`localhost`. -/
def simulatorTarget (listen : String) : String :=
  match Address.split listen with
  | .error _ => "tcp://" ++ listen
  | .ok (h, p) =>
    let h := if h.isEmpty || h = "0.0.0.0" || h = "::" then "localhost" else h
    "tcp://" ++ (if h.contains ':' then "[" ++ h ++ "]" else h) ++ ":" ++ p

/-- Loads the settings of a command line. -/
def setup (line : Parsed) : Run Settings := do
  let w ← world
  let dir := textOf line "config"
  let found ← must .config (w.manifest dir)
  let m := found.getD Manifest.default
  if let some r := m.validate then throw (.invalid r)
  let count := match line.get (globalFlag "verbose") with | .count n => n | _ => 0
  if !m.logFile.isEmpty && m.verbosity + count > -4 then
    setWorld { w with disk := w.disk.startLog w.cwd m.logFile }
  let port := textOf line "port"
  let target := if !port.isEmpty then port
    else if !m.serial.port.isEmpty then m.serial.port else simulatorTarget m.listen
  let device := textOf line "device"
  pure ⟨m, target, if device.isEmpty then target else device, Style.ofName (textOf line "output"),
    textOf line "symbols"⟩

/-! ### Symbols -/

/-- Where symbols are kept while a command runs. -/
inductive Store where
  /-- A database file, by absolute path. -/
  | file (path : String)
  /-- A database that lasts one command. -/
  | memory
  deriving DecidableEq, Repr

/-- A path with a leading `~` read as the home directory. -/
def expandHome (w : World) (p : String) : Except StoreError String :=
  if p = "~" || p.startsWith "~/" then
    match w.home with
    | some h => if h.isEmpty then .error (.noHome p) else .ok (Path.join [h, (p.drop 1).toString])
    | none => .error (.noHome p)
  else .ok p

/-- The path of the symbol database. -/
def storePath (s : Settings) (w : World) : Except StoreError String :=
  if s.symbols.isEmpty then expandHome w s.manifest.symbolsDb else .ok s.symbols

/-- Opens the symbol database at a path, making its directory and the database when they
are missing. -/
def openStore (path : String) : Run (Except StoreError Store) := do
  if path = ":memory:" then return .ok .memory
  let w ← world
  match w.disk.mkdirAll w.cwd (Path.dir path) with
  | .error e => return .error (.directory e)
  | .ok disk =>
    let p := Path.abs w.cwd path
    if disk.isDir p then return .error .unusable
    let disk := match disk.file? p with
      | some (.symbols _) => disk
      | _ => disk.put p (.symbols {})
    setWorld { w with disk }
    return .ok (.file p)

/-- Opens the settings' symbol database. -/
def openSymbols (s : Settings) : Run (Except StoreError Store) := do
  match storePath s (← world) with
  | .error e => return .error e
  | .ok p => openStore p

/-- The symbols of a store. -/
def table : Store → Run SymbolTable
  | .file p => return (← world).disk.symbols p
  | .memory => return {}

/-- Replaces the symbols of a store. -/
def saveTable (st : Store) (t : SymbolTable) : Run Unit := do
  match st with
  | .file p => let w ← world; setWorld { w with disk := w.disk.put p (.symbols t) }
  | .memory => pure ()

/-- The names recorded for a device's word indices; empty for an index with none. -/
def deviceNames (s : Settings) : Run (UInt16 → String) := do
  match ← openSymbols s with
  | .error _ => return fun _ => ""
  | .ok st =>
    let syms := (← table st).list s.device
    return fun i => ((syms.find? (·.index == i)).map (Utf8.lossy ·.name)).getD ""

/-! ### Devices -/

/-- Reaches the settings' device. -/
def connectTo (s : Settings) : Run (Except DialError Conn) := do
  let (w, r) := (← world).dial s.target
  setWorld w
  return r

/-- Sends a request to a device and reads its reply. -/
def ask (c : Conn) (cmd : Command) (payload : List UInt8) : Run (Except ClientError Reply) := do
  let (w, r) := (← world).request c cmd payload
  setWorld w
  return r

/-- Reads a file. -/
def readFile (path : String) : Run (List UInt8) := do
  let w ← world
  must .file (w.disk.read w.cwd path)

/-- Writes a file. -/
def writeFile (path : String) (b : List UInt8) : Run Unit := do
  let w ← world
  let disk ← must .file (w.disk.write w.cwd path b)
  setWorld { w with disk }

/-- The payload of a file to upload: a module (a `.cbor` file, in any case) as a container,
anything else as it is. -/
def loadPayload (path : String) : Run (List UInt8) := do
  let data ← readFile path
  if (Path.ext path).toLower != ".cbor" then return data
  let m ← must (.module path) (ModuleCodec.cbor.unmarshalModule data)
  must .container m.toContainer.marshal

/-- Pairs the indices a device assigned to an upload with the words sent: a container's
words in order, then its main code; a bare code is one word. -/
def uploadRows (payload : List UInt8) (indices : List UInt16) :
    Except ToolError (List (UInt16 × List UInt8 × Nat)) :=
  if !Container.isContainer payload then
    match indices with
    | [i] => .ok [(i, [], payload.length)]
    | _ => .error (.indicesForOne indices.length)
  else do
    let c ← (Container.parse payload).mapError .container
    let sent := c.words.map (fun w => (w.name, w.code.length)) ++ [([], c.main.length)]
    if indices.length ≠ sent.length then throw (.indicesFor indices.length sent.length)
    return (indices.zip sent).map fun (i, n, z) => (i, n, z)

/-! ### Commands -/

/-- Checks that the device answers. -/
def ping (s : Settings) : Run Unit := do
  let c ← must .dial (← connectTo s)
  let _ ← must (fun e => .during ("ping " ++ s.target) (.client e)) (← ask c .ping [])
  emit (s.target ++ ": OK\n")

/-- Resets the device, then forgets its symbols. -/
def reset (s : Settings) : Run Unit := do
  let c ← must (fun e => .during ("reset " ++ s.target) (.dial e)) (← connectTo s)
  let _ ← must (fun e => .during ("reset " ++ s.target) (.client e)) (← ask c .reset [])
  if let .ok st ← openSymbols s then
    saveTable st ((← table st).clear s.device)
  emit (s.target ++ ": reset\n")

/-- Uploads and runs a file, records the words it registered and lists them. -/
def exec (s : Settings) (path : String) : Run Unit := do
  let payload ← loadPayload path
  let c ← must (fun e => .during ("exec " ++ path) (.dial e)) (← connectTo s)
  let reply ← must (fun e => .during ("exec " ++ path) (.client e)) (← ask c .exec payload)
  let idx ← must (fun e => .during ("exec " ++ path) (.client e)) (Client.parseIndices reply.extra)
  let rows ← must id (uploadRows payload idx)
  if let .ok st ← openSymbols s then
    let now := (← world).clock
    saveTable st ((← table st).record (rows.map fun (i, n, z) => ⟨s.device, i, n, z, now⟩))
  emit ((Report.uploads (rows.map fun (i, n, z) => (i.toNat, n, z))).render s.style)

/-- Shows the device's stacks. -/
def stack (s : Settings) : Run Unit := do
  let c ← must .dial (← connectTo s)
  let reply ← must (fun e => .during "stack" (.client e)) (← ask c .queryStack [])
  let (d, r) ← must (fun e => .during "stack" (.client e)) (Client.parseStacks reply.extra)
  emit ((Report.stackPair (some d) (some r)).render s.style)

/-- Dumps device memory. -/
def mem (s : Settings) (a n : String) : Run Unit := do
  let addr ← must (.number "address" a) (Numeral.unsigned a 32)
  let len ← must (.number "length" n) (Numeral.unsigned n 16)
  let c ← must .dial (← connectTo s)
  let reply ← must (fun e => .during "mem" (.client e))
    (← ask c .queryMemory (Client.memoryRequest (UInt32.ofNat addr) (UInt16.ofNat len)))
  let data ← must (fun e => .during "mem" (.client e)) (Client.parseMemory len reply.extra)
  emit ((Report.memory (UInt32.ofNat addr) data).render s.style)

/-- Fetches a word and lists it, its calls named from the device's symbols. -/
def word (s : Settings) (arg : String) : Run Unit := do
  let idx ← must (.number "word index" arg) (Numeral.unsigned arg 16)
  let wrap := ToolError.during s!"word {idx}"
  let c ← must (wrap ∘ .dial) (← connectTo s)
  let reply ← must (wrap ∘ .client) (← ask c .queryWord (Client.wordRequest (UInt16.ofNat idx)))
  let (name, code) ← must (wrap ∘ .client) (Client.parseWord reply.extra)
  if s.style != .table then emit ((Report.wordView (UInt16.ofNat idx) name code).render s.style)
  else
    let title := if name.isEmpty then s!"word {idx}" else Utf8.lossy name
    emit (Code.listing title code (← deviceNames s))

/-- Lists the symbols recorded for the device, or for every device. -/
def words (s : Settings) (all : Bool) : Run Unit := do
  let st ← must .store (← openSymbols s)
  let t ← table st
  let syms := (if all then t.devices else [s.device]).flatMap t.list
  emit ((Report.symbols syms).render s.style)

/-- Converts a module file into a container file. -/
def pack (path out : String) : Run Unit := do
  let data ← readFile path
  let m ← must (.module path) (ModuleCodec.cbor.unmarshalModule data)
  let payload ← must (.inFile path) m.toContainer.marshal
  let out := if out.isEmpty then Path.replaceExt path ".v4b" else out
  writeFile out payload
  emit s!"wrote {out} ({m.words.length} words, {payload.length} bytes)\n"

/-- Converts a container file into a sealed module file. -/
def unpack (path out name : String) : Run Unit := do
  let data ← readFile path
  let c ← must (.inFile path) (Container.parse data)
  let base := Path.base path
  let ext := Path.ext path
  let name := if !name.isEmpty then name
    else if base.endsWith ext then String.ofList (base.toList.take (base.length - ext.length)) else base
  let m ← must .container (Module.ofContainer (Utf8.encode name) c).sealDigest
  let out := if out.isEmpty then Path.replaceExt path ".cbor" else out
  writeFile out (ModuleCodec.cbor.marshal m)
  emit s!"wrote {out} (digest {Hex.ofBytes (m.digest.take 8)})\n"

/-- Lists the code of a file: a container word by word, its calls named after its own
words, then its main code. -/
def dis (s : Settings) (path : String) : Run Unit := do
  let payload ← loadPayload path
  if !Container.isContainer payload then
    if s.style == .table then emit (Code.listing "" payload)
    else emit ((Report.listings [⟨-1, [], payload⟩]).render s.style)
  else
    let c ← must (.inFile path) (Container.parse payload)
    let names := fun (i : UInt16) => ((c.words[i.toNat]?).map (Utf8.lossy ·.name)).getD ""
    if s.style != .table then
      emit ((Report.listings ((c.words.zipIdx.map fun (w, i) => ⟨i, w.name, w.code⟩) ++
        [⟨c.words.length, Utf8.encode "main", c.main⟩])).render s.style)
    else
      emit (s!"; container v{c.major.toNat}.{c.minor.toNat}, {c.words.length} words\n" ++
        String.join (c.words.zipIdx.map fun (w, i) =>
          s!"\n; [{i}]\n" ++ Code.listing (Utf8.lossy w.name) w.code names) ++
        s!"\n; [{c.words.length}]\n" ++ Code.listing "main" c.main names)

/-- The help of the command a line of words names, or the root's usage after a note when
it names none. -/
def helpTopic (args : List String) : Run Unit :=
  match find tree args with
  | .ok (p, _) => emit (helpText p)
  | .error _ =>
    emit ("Unknown help topic [" ++ " ".intercalate (args.map Quote.backquoted) ++ "]\n" ++
      usage ⟨[], tree⟩ false)

/-- Runs the command a line leads to. -/
def dispatch (p : Place) (line : Parsed) : Run Unit := do
  let s ← setup line
  let arg := fun (i : Nat) => line.args.getD i ""
  match p.path with
  | "v4link ping" => ping s
  | "v4link reset" => reset s
  | "v4link exec" => exec s (arg 0)
  | "v4link stack" => stack s
  | "v4link mem" => mem s (arg 0) (arg 1)
  | "v4link word" => word s (arg 0)
  | "v4link words" => words s (line.get allFlag == .switch true)
  | "v4link pack" => pack (arg 0) (textOf line "out")
  | "v4link unpack" => unpack (arg 0) (textOf line "out") (textOf line "name")
  | "v4link dis" => dis s (arg 0)
  | "v4link help" => helpTopic line.args
  | _ => pure ()

/-- Runs a command line. -/
def run (args : List String) : Run Unit := do
  match request tree args with
  | .error e => throw (.command e)
  | .ok (.help p) => emit (helpText p)
  | .ok (.run p line) => dispatch p line

/-- What a command printed and how it ended. -/
structure Outcome where
  out : String
  error : Option ToolError

/-- Runs a command line in a world: the world after it, and its outcome. -/
def execute (w : World) (args : List String) : World × Outcome :=
  let (r, c) := (run args).run.run ⟨w, ""⟩
  (c.world, ⟨c.out, match r with | .ok () => none | .error e => some e⟩)

end StackLink.Tool
