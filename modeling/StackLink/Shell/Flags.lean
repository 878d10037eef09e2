import StackLink.Config.Duration
import StackLink.Text.Numeral

/-!
# Command-line flags

A flag is written long (`--port x`, `--port=x`) or, when it has one, by its
one-letter shorthand (`-p x`, `-px`, `-p=x`); shorthands of flags that need no
value can be grouped (`-vvv`). A switch needs no value and is set to true; a
counter needs none and goes up by one; an explicit value sets either. Flags and
other arguments may be mixed, and `--` ends the flags. An argument `-` is not a
flag.

Reading stops at the first fault: an argument that is not a well-formed flag, a
flag that does not exist, a flag missing its value, or a value its flag refuses.

The usage text lists the visible flags by name, their descriptions aligned in
one column, with each default that is not the zero value.
-/

namespace StackLink.Shell

/-- The kinds of value a flag holds. -/
inductive FlagKind where
  | text
  | duration
  | count
  | switch
  deriving DecidableEq, Repr

/-- A value of a flag. -/
inductive FlagValue where
  | text (s : String)
  | duration (d : Duration)
  | count (n : Int)
  | switch (b : Bool)
  deriving DecidableEq, Repr

/-- A flag a command accepts. -/
structure Flag where
  name : String
  short : Option Char := none
  kind : FlagKind
  usage : String
  /-- The value when the flag is not given; the zero value of its kind when none is said. -/
  default : Option FlagValue := none
  deriving DecidableEq, Repr

namespace FlagKind

/-- The zero value of a kind. -/
def zero : FlagKind → FlagValue
  | .text => .text ""
  | .duration => .duration ⟨0⟩
  | .count => .count 0
  | .switch => .switch false

/-- The value a flag of this kind takes when it is given without one. -/
def implied : FlagKind → Option String
  | .count => some "+1"
  | .switch => some "true"
  | _ => none

/-- The name of the kind's values in a usage line; nothing for a switch. -/
def valueName : FlagKind → String
  | .text => "string"
  | .duration => "duration"
  | .count => "count"
  | .switch => ""

end FlagKind

/-- A value as the usage text shows it. -/
def FlagValue.text? : FlagValue → String
  | .text s => s
  | .duration d => d.toText
  | .count n => toString n
  | .switch b => if b then "true" else "false"

namespace Flag

/-- The value a flag has when it is not given. -/
def initial (f : Flag) : FlagValue := f.default.getD f.kind.zero

/-- The name of a flag in messages: shorthand and long name, or the long name alone. -/
def label (f : Flag) : String :=
  match f.short with
  | some c => s!"-{c}, --{f.name}"
  | none => s!"--{f.name}"

end Flag

/-- Why the flags of a command line could not be read. -/
inductive FlagError where
  | badSyntax (arg : String)
  | unknown (name : String)
  /-- An unknown shorthand, and the shorthands from it to the end of its argument. -/
  | unknownShort (c : UInt8) (rest : String)
  | needsValue (name : String)
  | shortNeedsValue (c : Char) (rest : String)
  /-- A value the flag refuses: the value, the flag's label and the reason. -/
  | invalid (value label reason : String)
  deriving DecidableEq, Repr

/-- The error's text. -/
def FlagError.message : FlagError → String
  | .badSyntax a => "bad flag syntax: " ++ a
  | .unknown n => "unknown flag: --" ++ n
  | .unknownShort c rest => "unknown shorthand flag: " ++ Quote.rune (Char.ofNat c.toNat) ++ " in -" ++ rest
  | .needsValue n => "flag needs an argument: --" ++ n
  | .shortNeedsValue c rest => "flag needs an argument: " ++ Quote.rune c ++ " in -" ++ rest
  | .invalid v l r => "invalid argument " ++ Quote.text v ++ " for " ++ Quote.text l ++ " flag: " ++ r

/-- A command line read against a set of flags: the values set, latest last, and the other
arguments in order. -/
structure Parsed where
  values : List (String × FlagValue) := []
  args : List String := []
  deriving Repr

namespace Parsed

/-- The value of a flag, given or initial. -/
def get (p : Parsed) (f : Flag) : FlagValue :=
  match (p.values.filter (·.1 == f.name)).getLast? with
  | some (_, v) => v
  | none => f.initial

/-- Whether a flag was given. -/
def given (p : Parsed) (name : String) : Bool := p.values.any (·.1 == name)

end Parsed

/-- The value a flag takes from a text, given its current value. -/
def assign (f : Flag) (current : FlagValue) (s : String) : Except FlagError FlagValue :=
  let refuse := fun (r : String) => Except.error (FlagError.invalid s f.label r)
  match f.kind with
  | .text => .ok (.text s)
  | .duration => match Duration.parse s with
    | .ok d => .ok (.duration d)
    | .error e => refuse e.message
  | .count =>
    if s = "+1" then .ok (.count (match current with | .count n => n + 1 | _ => 1))
    else match Numeral.signed s 64 with
      | .ok n => .ok (.count n)
      | .error e => refuse e.message
  | .switch => match Numeral.truth s with
    | .ok b => .ok (.switch b)
    | .error e => refuse e.message

/-- Sets a flag from a text. -/
def Parsed.set (p : Parsed) (f : Flag) (s : String) : Except FlagError Parsed := do
  let v ← assign f (p.get f) s
  pure { p with values := p.values ++ [(f.name, v)] }

/-- The flag of a long name. -/
def byName (flags : List Flag) (n : String) : Option Flag := flags.find? (·.name == n)

/-- The flag of a shorthand byte. -/
def byShort (flags : List Flag) (c : UInt8) : Option Flag :=
  flags.find? fun f => f.short.map (fun s => s.toNat == c.toNat) |>.getD false

/-- Reads a long flag (without its dashes) and takes its value from the arguments after it
when it needs one. -/
def readLong (flags : List Flag) (p : Parsed) (arg : String) (rest : List String) :
    Except FlagError (Parsed × List String) :=
  let body := (arg.drop 2).toString
  match body.toList with
  | [] | '-' :: _ | '=' :: _ => .error (.badSyntax arg)
  | cs =>
    let name := String.ofList (cs.takeWhile (· ≠ '='))
    let given := if cs.contains '=' then some (String.ofList ((cs.dropWhile (· ≠ '=')).drop 1)) else none
    match byName flags name with
    | none => .error (.unknown name)
    | some f =>
      match given, f.kind.implied, rest with
      | some v, _, _ => (p.set f v).map (·, rest)
      | none, some v, _ => (p.set f v).map (·, rest)
      | none, none, v :: more => (p.set f v).map (·, more)
      | none, none, [] => .error (.needsValue name)

/-- Reads a group of shorthands, each taking what follows it in the group, or the next
argument, as its value when it needs one. -/
def readShorts (flags : List Flag) : Nat → Parsed → List UInt8 → List String →
    Except FlagError (Parsed × List String)
  | 0, p, _, rest => .ok (p, rest)
  | _, p, [], rest => .ok (p, rest)
  | k + 1, p, c :: cs, rest =>
    let group := c :: cs
    let text := Utf8.lossy group
    if text.startsWith "test." then .ok (p, rest)
    else match byShort flags c with
      | none => .error (.unknownShort c text)
      | some f =>
        match cs, f.kind.implied, rest with
        | 0x3D :: v :: vs, _, _ => (p.set f (Utf8.lossy (v :: vs))).map (·, rest)
        | _, some v, _ => do
          let p ← p.set f v
          readShorts flags k p cs rest
        | _ :: _, none, _ => (p.set f (Utf8.lossy cs)).map (·, rest)
        | [], none, v :: more => (p.set f v).map (·, more)
        | [], none, [] => .error (.shortNeedsValue (Char.ofNat c.toNat) text)

/-- Reads a command line against a set of flags. -/
def parse (flags : List Flag) (args : List String) : Except FlagError Parsed :=
  go args.length {} args
where
  /-- Reads the remaining arguments, with fuel for each of them. -/
  go : Nat → Parsed → List String → Except FlagError Parsed
    | 0, p, rest => .ok { p with args := p.args ++ rest }
    | _, p, [] => .ok p
    | k + 1, p, a :: rest =>
      if a = "--" then .ok { p with args := p.args ++ rest }
      else if a.startsWith "--" then do
        let (p, rest) ← readLong flags p a rest
        go k p rest
      else if a.startsWith "-" && a.length > 1 then do
        let group := (Utf8.encode a).drop 1
        let (p, rest) ← readShorts flags group.length p group rest
        go k p rest
      else go k { p with args := p.args ++ [a] } rest

/-! ### Usage -/

/-- The usage lines of flags, sorted by name: each flag's names and value name, then its
description in a column two blanks after the longest of those, then its default when
that is not the zero value of its kind. -/
def usages (flags : List Flag) : String :=
  let sorted := flags.mergeSort (fun a b => decide (a.name ≤ b.name))
  let heads := sorted.map fun f =>
    (match f.short with
      | some c => s!"  -{c}, --{f.name}"
      | none => s!"      --{f.name}") ++
    (if f.kind.valueName.isEmpty then "" else " " ++ f.kind.valueName)
  let width := heads.foldl (fun m h => max m (h.utf8ByteSize + 1)) 0
  let lines := (sorted.zip heads).map fun (f, h) =>
    let dflt := if f.initial = f.kind.zero then ""
      else match f.initial with
        | .text s => " (default " ++ Quote.text s ++ ")"
        | v => " (default " ++ v.text? ++ ")"
    h ++ " " ++ String.ofList (List.replicate (width - h.utf8ByteSize) ' ') ++ " " ++ f.usage ++ dflt ++ "\n"
  String.join lines

end StackLink.Shell
