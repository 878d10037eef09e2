import StackLink.Config.Toml.Reader
import StackLink.Config.Duration
import StackLink.Device.LinkConfig
/-!
# The manifest

A manifest configures the host tool and the simulator. Its TOML text has six
tables: `link` (`buffer-size`, `stack-window`, `memory-window`, `relocate`), `vm`
(`memory-size`, `max-words`, `stack-depth`), `serial` (`port`, `baud`, `timeout`),
`sim` (`listen`), `log` (`verbosity`, `file`) and `symbols` (`db`). Keys match
table and field names regardless of case; a key that matches nothing is refused,
the first one written being named. A `timeout` is a duration; a number, a boolean,
a float (with six decimals) or a date given for it is read as its text, and must
then read as a duration too.

What is left out or zero takes its default: the link's (512, 63, 256, relocation
on), the machine's (4096 bytes, 256 words, 256 cells), 115200 baud, a two-second
timeout, `:7401`, and `~/.v4link/symbols.db`. Validation then reports every
setting that cannot be honoured, one per line.
-/

namespace StackLink

/-- The `[link]` table. -/
structure LinkSection where
  bufferSize : Int := 0
  stackWindow : Int := 0
  memoryWindow : Int := 0
  relocate : Option Bool := none
  deriving Repr

/-- The `[vm]` table. -/
structure VmSection where
  memorySize : Int := 0
  maxWords : Int := 0
  stackDepth : Int := 0
  deriving Repr

/-- The `[serial]` table. -/
structure SerialSection where
  port : String := ""
  baud : Int := 0
  timeout : Duration := ⟨0⟩
  deriving Repr

/-- The settings of the whole manifest. -/
structure Manifest where
  link : LinkSection := {}
  vm : VmSection := {}
  serial : SerialSection := {}
  listen : String := ""
  verbosity : Int := 0
  logFile : String := ""
  symbolsDb : String := ""
  /-- The directory the manifest was read from, empty when it was not read from a file. -/
  dir : String := ""
  deriving Repr

/-- A machine's sizes and limits as requested, before defaults replace what is zero or less. -/
structure MachineRequest where
  memorySize : Int
  maxWords : Int
  stackDepth : Int
  maxCallDepth : Int
  maxSteps : Int
  deriving Repr

namespace Toml

/-- Whether a key matches a field name regardless of case: letters fold as in Unicode's
simple case folding, where `K` (Kelvin) folds with `k` and `ſ` with `s`. -/
def foldEq (field key : String) : Bool :=
  field.length == key.length &&
    (field.toList.zip key.toList).all fun (f, k) =>
      f == k || f.toLower == k.toLower || (f = 'k' && k.toNat = 0x212A) ||
        (f = 's' && k.toNat = 0x17F)

/-- The field a key sets: the one of the same name, else the first whose name it matches
regardless of case. -/
def fieldFor (fields : List String) (key : String) : Option String :=
  if fields.contains key then some key else fields.find? (foldEq · key)

/-- A float's text with six decimals, from the double nearest to it. -/
def fixedSix (text : String) : String :=
  let lower := text.toLower
  if lower.endsWith "nan" then "NaN"
  else if lower.endsWith "inf" then (if text.startsWith "-" then "-Inf" else "+Inf")
  else
    match Scalar.decimal? text.toList with
    | none => text
    | some (m, e) =>
      let x : Float := if e < 0 then Float.ofScientific m true e.natAbs else Float.ofScientific m false e.toNat
      let (frac, ex) := x.frExp
      let mant := (frac.scaleB 53).toUInt64.toNat
      let shift : Int := ex - 53
      let scaled : Nat :=
        if 0 ≤ shift then mant * Nat.pow 2 shift.toNat * 1000000
        else
          let den := Nat.pow 2 (-shift).toNat
          let q := mant * 1000000 / den
          let r := mant * 1000000 % den
          if 2 * r > den || (2 * r = den && q % 2 = 1) then q + 1 else q
      let sign := if text.startsWith "-" then "-" else ""
      let fracText := toString (scaled % 1000000)
      sign ++ toString (scaled / 1000000) ++ "." ++
        String.ofList (List.replicate (6 - fracText.length) '0') ++ fracText

/-- A date or time as a timestamp's text: date, time with its fraction's trailing zeros
dropped, and zone (`Z` for none or a zero offset). -/
def stampText (t : String) : String :=
  let (date, rest) := if t.length ≥ 10 && t.toList.getD 4 ' ' = '-' then (t.take 10 |>.toString, (t.drop 10).toString) else ("0000-01-01", "T" ++ t)
  let rest := if rest.isEmpty then "T00:00:00" else rest
  let body := (rest.drop 1).toString
  let clock := (body.take 8).toString
  let afterClock := (body.drop 8).toString
  let fracDigits := if afterClock.startsWith "." || afterClock.startsWith "," then
      ((afterClock.drop 1).toString.takeWhile Char.isDigit).toString else ""
  let zone := (afterClock.drop (if fracDigits.isEmpty then 0 else fracDigits.length + 1)).toString
  let trimmed := String.ofList (fracDigits.toList.reverse.dropWhile (· = '0')).reverse
  let zone := if zone.isEmpty || zone = "+00:00" || zone = "-00:00" then "Z" else zone
  date ++ "T" ++ clock ++ (if trimmed.isEmpty then "" else "." ++ trimmed) ++ zone

end Toml

/-- Why a manifest text was refused. -/
inductive ConfigError where
  | reading (e : Toml.SyntaxError)
  /-- A value of the wrong type at a key path, with the line of the key (0 when none is
  known). -/
  | mismatch (key : Toml.Key) (line : Nat) (message : String)
  /-- A timeout that is not a duration. -/
  | duration (key : Toml.Key) (line : Nat) (e : Duration.ParseError)
  | unknownKey (key : Toml.Key)

/-- The error's text. -/
def ConfigError.message : ConfigError → String
  | .reading e => e.text
  | .mismatch key line msg =>
    if key.isEmpty then "toml: " ++ msg
    else if line > 0 then s!"toml: line {line} (last key {Quote.text (Toml.keyText key)}): {msg}"
    else s!"toml: (last key {Quote.text (Toml.keyText key)}): {msg}"
  | .duration key line e => (Toml.SyntaxError.mk line (Toml.keyText key) e.message).text
  | .unknownKey key => "unknown key " ++ Quote.text (Toml.keyText key)

namespace Manifest

/-- What a field holds. -/
inductive Slot where
  | int
  | flag
  | text
  | span

/-- A decoded field value. -/
inductive Setting where
  | int (v : Int)
  | flag (b : Bool)
  | text (s : String)
  | span (d : Duration)

/-- The tables, each with the type name its errors use and its fields. -/
def schema : List (String × String × List (String × Slot)) :=
  [("link", "manifest.LinkSection",
      [("buffer-size", .int), ("stack-window", .int), ("memory-window", .int), ("relocate", .flag)]),
   ("vm", "manifest.VMSection", [("memory-size", .int), ("max-words", .int), ("stack-depth", .int)]),
   ("serial", "manifest.SerialSection", [("port", .text), ("baud", .int), ("timeout", .span)]),
   ("sim", "manifest.SimSection", [("listen", .text)]),
   ("log", "manifest.LogSection", [("verbosity", .int), ("file", .text)]),
   ("symbols", "manifest.SymbolsSection", [("db", .text)])]

/-- Decodes one field's value. -/
def decodeField (doc : Toml.Document) (path : Toml.Key) (slot : Slot) (v : Toml.Value) :
    Except ConfigError Setting :=
  let line := doc.lineOf path
  let wrong (dest : String) : Except ConfigError Setting :=
    .error (.mismatch path line
      s!"incompatible types: TOML value has type {v.typeName}; destination has type {dest}")
  match slot, v with
  | .int, .int i => .ok (.int i)
  | .int, _ => wrong "integer"
  | .flag, .bool b => .ok (.flag b)
  | .flag, _ => wrong "boolean"
  | .text, .str s => .ok (.text s)
  | .text, _ => wrong "string"
  | .span, v =>
    let text? : Option String := match v with
      | .str s => some s
      | .bool b => some (if b then "true" else "false")
      | .int i => some (toString i)
      | .float t => some (Toml.fixedSix t)
      | .datetime t => some (Toml.stampText t)
      | _ => none
    match text? with
    | none => wrong "primitive (string-like)"
    | some s =>
      match Duration.parse s with
      | .ok d => .ok (.span d)
      | .error e => .error (.duration path line e)

/-- Decodes one table: its settings by field name, in the order written, and the key paths
it used. -/
def decodeTable (doc : Toml.Document) (path : Toml.Key) (typeName : String)
    (fields : List (String × Slot)) (v : Toml.Value) :
    Except ConfigError (List (String × Setting) × List Toml.Key) :=
  match v with
  | .table entries =>
    entries.foldlM (fun (acc, used) (k, x) =>
      match Toml.fieldFor (fields.map (·.1)) k with
      | some f =>
        let slot := ((fields.find? (·.1 == f)).map (·.2)).getD .int
        (decodeField doc (path ++ [k]) slot x).map fun s => (acc ++ [(f, s)], used ++ [path ++ [k]])
      | none => .ok (acc, used)) ([], [])
  | other =>
    .error (.mismatch path (doc.lineOf path)
      s!"type mismatch for {typeName}: expected table but found {other.typeName}")

/-- The last setting of a field. -/
def lookup (ss : List (String × Setting)) (f : String) : Option Setting :=
  (ss.reverse.find? (·.1 == f)).map (·.2)

/-- An integer field, zero when unset. -/
def intOf (ss : List (String × Setting)) (f : String) : Int :=
  match lookup ss f with | some (.int v) => v | _ => 0

/-- A text field, empty when unset. -/
def textOf (ss : List (String × Setting)) (f : String) : String :=
  match lookup ss f with | some (.text v) => v | _ => ""

/-- Builds the manifest from the settings of each table. -/
def ofSettings (tables : List (String × List (String × Setting))) : Manifest :=
  let t (name : String) := ((tables.reverse.find? (·.1 == name)).map (·.2)).getD []
  let ls := t "link"
  let vs := t "vm"
  let ss := t "serial"
  { link := { bufferSize := intOf ls "buffer-size", stackWindow := intOf ls "stack-window",
              memoryWindow := intOf ls "memory-window",
              relocate := match lookup ls "relocate" with | some (.flag b) => some b | _ => none }
    vm := { memorySize := intOf vs "memory-size", maxWords := intOf vs "max-words",
            stackDepth := intOf vs "stack-depth" }
    serial := { port := textOf ss "port", baud := intOf ss "baud",
                timeout := match lookup ss "timeout" with | some (.span d) => d | _ => ⟨0⟩ }
    listen := textOf (t "sim") "listen"
    verbosity := intOf (t "log") "verbosity"
    logFile := textOf (t "log") "file"
    symbolsDb := textOf (t "symbols") "db" }

/-- Fills in the defaults of what is zero or unset. -/
def withDefaults (m : Manifest) : Manifest :=
  let lc := LinkConfig.default
  let pick (v d : Int) : Int := if v = 0 then d else v
  { m with
    link := { bufferSize := pick m.link.bufferSize lc.bufferSize
              stackWindow := pick m.link.stackWindow lc.stackWindow
              memoryWindow := pick m.link.memoryWindow lc.memoryWindow
              relocate := some (m.link.relocate.getD lc.relocate) }
    vm := { memorySize := pick m.vm.memorySize 4096, maxWords := pick m.vm.maxWords 256,
            stackDepth := pick m.vm.stackDepth 256 }
    serial := { port := m.serial.port, baud := pick m.serial.baud 115200
                timeout := if m.serial.timeout.nanos = 0 then ⟨2000000000⟩ else m.serial.timeout }
    listen := if m.listen.isEmpty then ":7401" else m.listen
    symbolsDb := if m.symbolsDb.isEmpty then "~/.v4link/symbols.db" else m.symbolsDb }

/-- The manifest used when there is no file. -/
def default : Manifest := withDefaults {}

/-- Reads a manifest text and fills in the defaults. -/
def parse (text : String) : Except ConfigError Manifest := do
  let doc ← (Toml.read text).mapError .reading
  let (tables, used) ← doc.root.foldlM (fun (acc, used) (k, v) =>
    match Toml.fieldFor (schema.map (·.1)) k with
    | some name =>
      let (typeName, fields) := ((schema.find? (·.1 == name)).map (·.2)).getD ("", [])
      (decodeTable doc [k] typeName fields v).map fun (ss, u) => (acc ++ [(name, ss)], used ++ [[k]] ++ u)
    | none => .ok (acc, used)) ([], [])
  let usedText := used.map Toml.keyText
  match doc.keys.find? (fun k => !usedText.contains (Toml.keyText k)) with
  | some k => throw (.unknownKey k)
  | none => return withDefaults (ofSettings tables)

/-- The link settings. -/
def linkConfig (m : Manifest) : LinkConfig :=
  ⟨m.link.bufferSize, m.link.stackWindow, m.link.memoryWindow, m.link.relocate.getD true⟩

/-- The machine the manifest asks for: its sizes, and the default call depth and step limit. -/
def machine (m : Manifest) : MachineRequest :=
  ⟨m.vm.memorySize, m.vm.maxWords, m.vm.stackDepth, 64, 1000000⟩

/-- Every setting that cannot be honoured, one per line; none when all can. -/
def validate (m : Manifest) : Option String :=
  let errs := (m.linkConfig.validate.toList) ++
    (if m.vm.memorySize < 0 || m.vm.maxWords < 0 || m.vm.stackDepth < 0 then
      ["vm sizes must not be negative"] else []) ++
    (if m.vm.maxWords > 65536 then [s!"vm max-words {m.vm.maxWords} exceeds the 16-bit word index"] else []) ++
    (if m.serial.baud < 0 then [s!"serial baud {m.serial.baud} is negative"] else []) ++
    (if m.serial.timeout.nanos < 0 then [s!"serial timeout {m.serial.timeout.toText} is negative"] else [])
  if errs.isEmpty then none else some ("\n".intercalate errs)

end Manifest

end StackLink
