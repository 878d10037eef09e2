import StackLink.Host.Tool.Run

/-!
# The host tool on this machine

The host tool works on a picture of the machine it runs on (`StackLink.World`).
This outer layer takes that picture: every path the command line names, the
configuration files from the working directory up and in the directory it is
told, the log and symbol database the configuration names, and the home
directory's symbol database. It runs the command line, prints what the tool
printed (an error after `Error: `, with exit status 1), and writes back the files
the tool made or changed.

A path goes into the picture by reading it: its bytes make a file, a refusal
because it is a directory makes a directory, and anything else leaves it out.
Each path comes with its parents, from the root down to the first that is not a
directory.

A symbol database is kept as text: a first line naming the format, then one
symbol to a line, its fields separated by tabs, the name's bytes in hexadecimal. No serial line or network is
reachable from this layer. The wall clock is the boot time the kernel reports,
plus the time since boot.
-/

namespace StackLink.Console

/-- The first line of a symbol database file. -/
def header : String := "stacklink-symbols 2"

/-- The text of a symbol database. -/
def encodeSymbols (t : SymbolTable) : String :=
  header ++ "\n" ++ String.join (t.symbols.map fun s =>
    s!"{s.device}\t{s.index.toNat}\t" ++ Hex.ofBytes s.name ++ s!"\t{s.size}\t{s.recorded}\n")

/-- The symbol of one line of a database. -/
def decodeSymbol (row : String) : Option Symbol :=
  match row.splitOn "\t" with
  | [d, i, n, z, r] => do
    let i ← i.toNat?
    let z ← z.toInt?
    let r ← r.toInt?
    let n ← Hex.toBytes? n.toList
    some ⟨d, UInt16.ofNat i, n, z, r⟩
  | _ => none

/-- The symbol database a text holds, if it is one. -/
def decodeSymbols (text : String) : Option SymbolTable :=
  match text.splitOn "\n" with
  | h :: rows => if h != header then none else some ⟨(rows.filter (!·.isEmpty)).filterMap decodeSymbol⟩
  | [] => none

/-- What a file's bytes are to the tool. -/
def contentOf (b : ByteArray) : Content :=
  match String.fromUTF8? b >>= decodeSymbols with
  | some t => .symbols t
  | none => .bytes b.toList

/-- What reading a path found. -/
inductive Found where
  | file (b : ByteArray)
  | directory
  | nothing

/-- The number the system gives a refusal to read a directory. -/
def isDirectoryCode : UInt32 := 21

/-- Reads a path to learn what is there. -/
def look (p : String) : IO Found := do
  try
    return .file (← IO.FS.readBinFile p)
  catch e =>
    match e with
    | .inappropriateType _ code _ => return if code = isDirectoryCode then .directory else .nothing
    | _ => return .nothing

/-- Adds an absolute path to the picture, with its parents from the root down to the
first that is not a directory. -/
def addPath (d : Disk) (p : String) : IO Disk := do
  let mut d := d
  for a in (Path.ancestors p).drop 1 do
    if (d.file? a).isSome then return d
    if !d.isDir a then
      match ← look a with
      | .file b => return d.put a (contentOf b)
      | .directory => d := d.addDir a
      | .nothing => return d
  return d

/-- The value of a flag on the command line, if given. -/
def flagValue (name : String) : List String → Option String
  | a :: rest =>
    if a = "--" ++ name then rest.head?
    else if a.startsWith ("--" ++ name ++ "=") then some (a.drop (name.length + 3)).toString
    else flagValue name rest
  | [] => none

/-- The paths a command-line word may name: itself, and what follows an `=` in a flag. -/
def named (word : String) : List String :=
  if word.startsWith "-" then
    match word.splitOn "=" with
    | _ :: v :: more => ["=".intercalate (v :: more)]
    | _ => []
  else [word]

/-- The picture of the machine a command line needs. -/
def picture (args : List String) : IO World := do
  let cwd := (← IO.getEnv "PWD").getD "/"
  let home ← IO.getEnv "HOME"
  let mut d : Disk := (({} : Disk).addDir cwd)
  for a in Path.ancestors cwd do
    d ← addPath d (Path.join [a, "v4link.toml"])
  for w in args do
    for p in named w do
      if !p.isEmpty then d ← addPath d (Path.abs cwd p)
  if let some dir := flagValue "config" args then
    d ← addPath d (Path.join [Path.abs cwd dir, "v4link.toml"])
  if let some h := home then
    d ← addPath d (Path.join [h, ".v4link", "symbols.db"])
  let w : World := { cwd, home, clock := ← wallClock, disk := d }
  match w.manifest ((flagValue "config" args).getD "") with
  | .ok (some m) =>
    if !m.logFile.isEmpty then d ← addPath d (Path.abs cwd m.logFile)
    if let .ok db := Tool.expandHome w m.symbolsDb then
      if !db.isEmpty then d ← addPath d (Path.abs cwd db)
    return { w with disk := d }
  | _ => return w
where
  /-- Nanoseconds since 1970: the boot time plus the time since boot, or zero when the
  boot time cannot be read. -/
  wallClock : IO Int := do
    let boot ← try
        let s ← IO.FS.readFile "/proc/stat"
        pure (((s.splitOn "\n").find? (·.startsWith "btime ")).bind fun l => (l.drop 6).trimAscii.toNat?)
      catch _ => pure none
    match boot with
    | some b => return b * 1000000000 + (← IO.monoNanosNow)
    | none => return 0

/-- Writes back what a command made or changed. -/
def writeBack (before after : Disk) : IO Unit := do
  for dir in after.dirs do
    if !before.isDir dir then IO.FS.createDirAll dir
  for (p, c) in after.files do
    match before.file? p, c with
    | some (.bytes a), .bytes b => if a != b then IO.FS.writeBinFile p (ByteArray.mk b.toArray)
    | _, .bytes b => IO.FS.writeBinFile p (ByteArray.mk b.toArray)
    | _, .symbols t => IO.FS.writeFile p (encodeSymbols t)
    | none, .log => IO.FS.writeFile p ""
    | _, .log => pure ()

end StackLink.Console

open StackLink in
/-- Runs the host tool with a command line. -/
def main (args : List String) : IO UInt32 := do
  let w ← Console.picture args
  let (w', o) := Tool.execute w args
  Console.writeBack w.disk w'.disk
  IO.print o.out
  match o.error with
  | some e =>
    IO.eprintln ("Error: " ++ e.message)
    return 1
  | none => return 0
