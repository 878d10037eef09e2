import StackLink.Text.Numeral

/-!
# Single-dash options

Options written with one or two dashes and their full name (`-listen x`,
`-listen=x`, `--mem 4`). A switch is set to true by its name alone, or to a value
written with `=`; any other option takes the next argument as its value unless
it is written with `=`. Reading stops at the first argument that is not an
option, after `--`, or at the first fault, keeping the options read before it.
Asking for `-h` or `-help` stops it too.

A number is read as a signed 64-bit numeral with an optional base prefix; when it
does not read, the option is still set, to zero, or to the nearest bound when it
is out of range, before the fault stops the reading.

The usage text lists the options by name, each description on the line below
its option, with a default that is not the zero value.
-/

namespace StackLink.Shell

/-- The kinds of value an option holds. -/
inductive OptionKind where
  | text
  | int
  | switch
  deriving DecidableEq, Repr

/-- A value of an option. -/
inductive OptionValue where
  | text (s : String)
  | int (n : Int)
  | switch (b : Bool)
  deriving DecidableEq, Repr

/-- An option a program accepts, with its value when not given. -/
structure Opt where
  name : String
  kind : OptionKind
  usage : String
  default : OptionValue
  deriving DecidableEq, Repr

/-- The zero value of a kind. -/
def OptionKind.zero : OptionKind → OptionValue
  | .text => .text ""
  | .int => .int 0
  | .switch => .switch false

/-- Why reading options stopped early. -/
inductive OptionError where
  | badSyntax (arg : String)
  | undefined (name : String)
  | badSwitch (value name : String)
  | needsValue (name : String)
  /-- A value that does not read: the value, the option, and whether it was out of range
  rather than unreadable. -/
  | badValue (value name : String) (outOfRange : Bool)
  deriving DecidableEq, Repr

/-- The error's text. -/
def OptionError.message : OptionError → String
  | .badSyntax a => "bad flag syntax: " ++ a
  | .undefined n => "flag provided but not defined: -" ++ n
  | .badSwitch v n => "invalid boolean value " ++ Quote.text v ++ " for -" ++ n ++ ": parse error"
  | .needsValue n => "flag needs an argument: -" ++ n
  | .badValue v n r =>
    "invalid value " ++ Quote.text v ++ " for flag -" ++ n ++ ": " ++
      (if r then "value out of range" else "parse error")

/-- How reading options ended early. -/
inductive OptionStop where
  | help
  | fault (e : OptionError)
  deriving DecidableEq, Repr

/-- Options read from a command line: the values set, latest last, how the reading
stopped early if it did, and the arguments after the options. -/
structure OptionsRead where
  values : List (String × OptionValue) := []
  stop : Option OptionStop := none
  rest : List String := []
  deriving Repr

/-- The value of an option, given or default. -/
def OptionsRead.get (r : OptionsRead) (o : Opt) : OptionValue :=
  match (r.values.filter (·.1 == o.name)).getLast? with
  | some (_, v) => v
  | none => o.default

/-- The value an option takes from a text, and the fault of a text it refuses. -/
def Opt.assign (o : Opt) (s : String) : OptionValue × Option OptionError :=
  match o.kind with
  | .text => (.text s, none)
  | .switch => match Numeral.truth s with
    | .ok b => (.switch b, none)
    | .error _ => (.switch false, some (.badSwitch s o.name))
  | .int => match Numeral.signed s 64 with
    | .ok n => (.int n, none)
    | .error e =>
      if e.fault = .range then
        (.int (if s.startsWith "-" then -(Nat.pow 2 63) else Nat.pow 2 63 - 1), some (.badValue s o.name true))
      else (.int 0, some (.badValue s o.name false))

/-- Reads options from a command line. -/
def readOptions (opts : List Opt) (args : List String) : OptionsRead :=
  go args.length {} args
where
  /-- Reads the remaining arguments, with fuel for each of them. -/
  go : Nat → OptionsRead → List String → OptionsRead
    | 0, r, rest => { r with rest }
    | _, r, [] => r
    | k + 1, r, a :: rest =>
      if a.length < 2 || !a.startsWith "-" then { r with rest := a :: rest }
      else if a = "--" then { r with rest }
      else
        let name := (if a.startsWith "--" then a.drop 2 else a.drop 1).toString
        match name.toList with
        | [] | '-' :: _ | '=' :: _ => { r with stop := some (.fault (.badSyntax a)), rest }
        | c :: cs =>
          let key := String.ofList (c :: cs.takeWhile (· ≠ '='))
          let given := if cs.contains '=' then some (String.ofList ((cs.dropWhile (· ≠ '=')).drop 1)) else none
          match opts.find? (·.name == key) with
          | none =>
            if key = "help" || key = "h" then { r with stop := some .help, rest }
            else { r with stop := some (.fault (.undefined key)), rest }
          | some o =>
            let (value, rest) := match o.kind, given, rest with
              | .switch, some v, _ => (some v, rest)
              | .switch, none, _ => (some "true", rest)
              | _, some v, _ => (some v, rest)
              | _, none, v :: more => (some v, more)
              | _, none, [] => (none, [])
            match value with
            | none => { r with stop := some (.fault (.needsValue key)), rest }
            | some v =>
              let (val, fault) := o.assign v
              let r := { r with values := r.values ++ [(key, val)] }
              match fault with
              | some e => { r with stop := some (.fault e), rest }
              | none => go k r rest

/-- The usage lines of options, sorted by name: the option and its value's kind, then its
description on the next line, with its default when that is not the zero value. -/
def optionUsages (opts : List Opt) : String :=
  let sorted := opts.mergeSort (fun a b => decide (a.name ≤ b.name))
  String.join (sorted.map fun o =>
    let head := "  -" ++ o.name ++ (match o.kind with | .text => " string" | .int => " int" | .switch => "")
    let dflt := if o.default = o.kind.zero then ""
      else match o.default with
        | .text s => " (default " ++ Quote.text s ++ ")"
        | .int n => s!" (default {n})"
        | .switch b => s!" (default {b})"
    head ++ (if head.length ≤ 4 then "\t" else "\n    \t") ++ o.usage ++ dflt ++ "\n")

end StackLink.Shell
