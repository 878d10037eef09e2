import StackLink.Shell.Flags

/-!
# Commands and subcommands

A command line names a path of commands from the root, then gives flags and
arguments. The words that are not flags, nor values of flags that need one, pick
the path: each one that names a subcommand of the command reached so far goes one
level down. The command reached reads the whole remaining line against its own
flags and the persistent flags of the commands above it, plus its help flag.

A command that cannot run, or that is asked for help, prints its help. One that
can checks its arguments (none, or an exact count) before it runs. A word that
names no command under the root is refused, with the commands whose names are
close to it (at most two edits away, or starting with it) as suggestions.

A help text is the command's description, then its usage: how it is called, its
subcommands in name order, its flags and the flags it inherits.
-/

namespace StackLink.Shell

/-- Which arguments a command takes. -/
inductive ArgRule where
  /-- Any arguments; the root refuses a first word that names no command. -/
  | any
  | none
  | exactly (n : Nat)
  deriving DecidableEq, Repr

/-- What a command is: its name and call form, descriptions, arguments and flags. -/
structure Spec where
  /-- The first word is the name; the rest shows the arguments. -/
  use : String
  short : String
  long : String := ""
  args : ArgRule := .any
  flags : List Flag := []
  /-- Flags also offered by every command under this one. -/
  persistent : List Flag := []
  runnable : Bool := true
  hidden : Bool := false
  /-- The usage line shows the command without its flags. -/
  bareUse : Bool := false
  deriving DecidableEq, Repr

/-- The command's name. -/
def Spec.name (s : Spec) : String := (s.use.splitOn " ").headD ""

/-- A command and its subcommands. -/
inductive Command where
  | node (spec : Spec) (children : List Command)
  deriving Repr

namespace Command

/-- The command's description. -/
def spec : Command → Spec
  | .node s _ => s

/-- The subcommands. -/
def children : Command → List Command
  | .node _ cs => cs

/-- The command's name. -/
def name (c : Command) : String := c.spec.name

/-- Whether a command shows in the lists of commands and in suggestions: not hidden, not
the help command, and either runnable or with such subcommands itself. -/
def isAvailable (c : Command) : Bool :=
  !c.spec.hidden && c.name != "help" &&
    (c.spec.runnable || c.children.any fun d => !d.spec.hidden && d.name != "help" && d.spec.runnable)

end Command

/-- The help flag of a command. -/
def helpFlag (name : String) : Flag :=
  { name := "help", short := some 'h', kind := .switch, usage := "help for " ++ name }

/-- A command with the commands above it, the root first: where a command line leads. -/
structure Place where
  above : List Command
  here : Command
  deriving Repr

namespace Place

/-- The names from the root down to the command. -/
def path (p : Place) : String := " ".intercalate ((p.above ++ [p.here]).map Command.name)

/-- The flags the command inherits from the commands above it, nearest first. -/
def inherited (p : Place) : List Flag := (p.above.reverse.map (·.spec.persistent)).flatten

/-- The command's own flags, with its help flag when that is set up. -/
def own (p : Place) (withHelp : Bool) : List Flag :=
  p.here.spec.flags ++ (if withHelp then [helpFlag p.here.name] else []) ++ p.here.spec.persistent

/-- Every flag a command line may give at this command. -/
def flags (p : Place) (withHelp : Bool) : List Flag := p.own withHelp ++ p.inherited

end Place

/-- Whether a flag needs no value, so the argument after it is not its value. -/
def standsAlone (flags : List Flag) (arg : String) : Bool :=
  if arg.startsWith "--" then ((byName flags (arg.drop 2).toString).bind (·.kind.implied)).isSome
  else match (Utf8.encode arg).drop 1 with
    | c :: _ => ((byShort flags c).bind (·.kind.implied)).isSome
    | [] => false

/-- Whether an argument is a flag that takes the next argument as its value. -/
def takesNext (flags : List Flag) (arg : String) : Bool :=
  !arg.contains '=' &&
    ((arg.startsWith "--" && !standsAlone flags arg) ||
      (arg.startsWith "-" && arg.length = 2 && !standsAlone flags arg))

/-- The words of a command line that are neither flags nor their values; a flag that takes
a value with nothing after the value ends the scan. -/
def words (flags : List Flag) : Nat → List String → List String
  | 0, _ => []
  | _, [] => []
  | k + 1, a :: rest =>
    if a = "--" then []
    else if takesNext flags a then
      match rest with
      | _ :: r@(_ :: _) => words flags k r
      | _ => []
    else if !a.isEmpty && !a.startsWith "-" then a :: words flags k rest
    else words flags k rest

/-- A command line without the first word equal to `x` that is neither a flag nor a flag's
value. -/
def withoutWord (flags : List Flag) (x : String) : Nat → List String → List String
  | 0, args => args
  | _, [] => []
  | k + 1, a :: rest =>
    if a = "--" then a :: rest
    else if takesNext flags a then
      match rest with
      | v :: r => a :: v :: withoutWord flags x k r
      | [] => [a]
    else if !a.startsWith "-" && a = x then rest
    else a :: withoutWord flags x k rest

/-- Follows the words of a command line down the tree: the command reached and the
line without the words used. -/
def descend : Nat → Place → List String → Place × List String
  | 0, p, args => (p, args)
  | k + 1, p, args =>
    let flags := p.flags false
    match words flags args.length args with
    | [] => (p, args)
    | w :: _ =>
      match p.here.children.find? (·.name == w) with
      | some c => descend k ⟨p.above ++ [p.here], c⟩ (withoutWord flags w args.length args)
      | none => (p, args)

/-- The number of single-byte edits between two texts, letters compared in any case. -/
def editDistance (s t : String) : Nat :=
  let a := (Utf8.encode s.toLower).toArray
  let b := (Utf8.encode t.toLower).toArray
  let first := List.range (b.size + 1)
  let last := (List.range a.size).foldl (fun row i =>
    (List.range b.size).foldl (fun cur j =>
      let cost := if a.getD i 0 = b.getD j 0 then row.getD j 0
        else min (min (row.getD (j + 1) 0) (cur.getD j 0)) (row.getD j 0) + 1
      cur ++ [cost]) [i + 1]) first
  last.getD b.size 0

/-- The names of the available subcommands close to a word: at most two edits away, or
starting with it. -/
def suggestions (c : Command) (w : String) : List String :=
  (c.children.filter fun d => d.isAvailable &&
    (editDistance w d.name ≤ 2 || d.name.toLower.startsWith w.toLower)).map Command.name

/-- Why a command line does not lead to a command that can run. -/
inductive CommandError where
  | flag (e : FlagError)
  /-- A word that names no command under the path, with the suggested names. -/
  | unknownCommand (word path : String) (suggested : List String)
  /-- A wrong number of arguments: the number taken and the number given. -/
  | argCount (expected given : Nat)
  deriving DecidableEq, Repr

/-- The error's text. -/
def CommandError.message : CommandError → String
  | .flag e => e.message
  | .unknownCommand w p s =>
    "unknown command " ++ Quote.text w ++ " for " ++ Quote.text p ++
      (if s.isEmpty then "" else "\n\nDid you mean this?\n" ++ String.join (s.map ("\t" ++ · ++ "\n")))
  | .argCount e g => s!"accepts {e} arg(s), received {g}"

/-- Finds the command a line leads to, refusing an unknown first word at the root. -/
def find (root : Command) (args : List String) : Except CommandError (Place × List String) :=
  let (p, rest) := descend (args.length + 1) ⟨[], root⟩ args
  if p.above.isEmpty && !p.here.children.isEmpty && p.here.spec.args = .any then
    match words (p.flags false) rest.length rest with
    | w :: _ => .error (.unknownCommand w p.path (suggestions p.here w))
    | [] => .ok (p, rest)
  else .ok (p, rest)

/-- What a command line asks for. -/
inductive Request where
  /-- The help of a command. -/
  | help (p : Place)
  /-- Running a command with the flags and arguments read. -/
  | run (p : Place) (line : Parsed)
  deriving Repr

/-- Reads a command line against a tree of commands. -/
def request (root : Command) (args : List String) : Except CommandError Request := do
  let (p, rest) ← find root args
  let line ← (parse (p.flags true) rest).mapError .flag
  if (line.get (helpFlag p.here.name)) = .switch true || !p.here.spec.runnable then
    return .help p
  match p.here.spec.args, line.args with
  | .none, a :: _ => throw (.unknownCommand a p.path [])
  | .exactly n, as => if as.length = n then return .run p line else throw (.argCount n as.length)
  | _, _ => return .run p line

/-! ### Help -/

/-- A text without the blanks at its end. -/
def trimEnd (s : String) : String :=
  String.ofList (s.toList.reverse.dropWhile Char.isWhitespace).reverse

/-- A text padded with blanks to a width. -/
def padRight (n : Nat) (s : String) : String :=
  s ++ String.ofList (List.replicate (n - s.length) ' ')

/-- The usage of a command: how it is called, its subcommands, its own and inherited
flags, and where to read more; `withHelp` says whether its help flag is set up. -/
def usage (p : Place) (withHelp : Bool) : String :=
  let c := p.here
  let subs := c.children.mergeSort (fun a b => decide (a.name ≤ b.name))
  let hasSubs := subs.any Command.isAvailable
  let width := max 11 (c.children.foldl (fun m d => max m d.name.length) 0)
  let own := p.own withHelp
  let useLine := String.join (p.above.map (·.name ++ " ")) ++
    c.spec.use ++ (if c.spec.bareUse || c.spec.use.endsWith "[flags]" then "" else " [flags]")
  "Usage:" ++
    (if c.spec.runnable then "\n  " ++ useLine else "") ++
    (if hasSubs then "\n  " ++ p.path ++ " [command]" else "") ++
    (if hasSubs then
      "\n\nAvailable Commands:" ++ String.join ((subs.filter fun d => d.isAvailable || d.name == "help").map
        fun d => "\n  " ++ padRight width d.name ++ " " ++ d.spec.short)
    else "") ++
    (if own.isEmpty then "" else "\n\nFlags:\n" ++ trimEnd (usages own)) ++
    (if p.inherited.isEmpty then "" else "\n\nGlobal Flags:\n" ++ trimEnd (usages p.inherited)) ++
    (if hasSubs then "\n\nUse \"" ++ p.path ++ " [command] --help\" for more information about a command." else "") ++
    "\n"

/-- The help of a command: its long description, or else its short one, then its usage. -/
def helpText (p : Place) : String :=
  let about := if p.here.spec.long.isEmpty then p.here.spec.short else p.here.spec.long
  (if about.isEmpty then "" else trimEnd about ++ "\n\n") ++
    (if p.here.spec.runnable || !p.here.children.isEmpty then usage p true else "")

end StackLink.Shell
