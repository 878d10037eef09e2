import StackLink.Config.Toml.Scalar
/-!
# Reading TOML

The reader walks the text once, character by character, and builds the document
as it goes, so that of two faults the one met first is reported. Each fault
names its line and the key being read (the table's name and the key, as far as
they are known), and says what was expected.

Tables are entered by `[name]` headers and `[[name]]` headers (a new table at
the end of an array of tables); the parents of a header, and the parents of a
dotted key, are created as they are first needed and may be defined later. A
key may be defined once; so may a table, unless it was only created as a parent.
Inline tables and the inline tables of an array enter the document the same way
as their header forms.

A control character anywhere, and a carriage return not followed by a line
feed, is a fault where it is read.
-/

namespace StackLink.Toml

/-- The reader's state: the text still to read, the line it is on, the document so far,
the current table and key, the tables created only as parents, and what was recorded for
each key. -/
structure Reader where
  rest : List Char
  line : Nat := 1
  /-- The line of the key or header being read. -/
  pos : Nat := 1
  root : Table := []
  context : Key := []
  current : String := ""
  implicit : List Key := []
  info : List (String × Nat × Kind) := []
  keys : List Key := []

/-- Reading: state, or a fault. -/
abbrev ReadM := StateT Reader (Except SyntaxError)

namespace Reader

/-- The key being read, for fault messages: the current table, then the key. -/
def lastKey (r : Reader) : String :=
  if r.current.isEmpty then keyText r.context
  else if r.context.isEmpty then r.current
  else keyText r.context ++ "." ++ r.current

end Reader

/-! ### Faults -/

/-- A fault at a line. -/
def failAt {α : Type} (line : Nat) (msg : String) : ReadM α := do
  throw ⟨line, (← get).lastKey, msg⟩

/-- A fault at the current line. -/
def fail {α : Type} (msg : String) : ReadM α := do failAt (← get).line msg

/-- A fault reported on the line before, for a line break that should not be there. -/
def failBefore {α : Type} (msg : String) : ReadM α := do failAt ((← get).line - 1) msg

/-- A character as it is named in a fault about what came instead. -/
def named : Option Char → String
  | some c => Quote.rune c
  | none => Quote.rune '\x00'

/-! ### Characters -/

/-- Characters no TOML text may hold: the controls but for tab, line feed and carriage
return, and delete. -/
def isControl (c : Char) : Bool :=
  (c.toNat < 0x20 && c ≠ '\t' && c ≠ '\r' && c ≠ '\n') || c.toNat = 0x7F

/-- Spaces and tabs. -/
def isSpace (c : Char) : Bool := c = ' ' || c = '\t'

/-- Line feeds and carriage returns. -/
def isNewline (c : Char) : Bool := c = '\n' || c = '\r'

/-- The next character, not consumed; none at the end. -/
def peek : ReadM (Option Char) := do
  match (← get).rest with
  | [] => return none
  | c :: rest =>
    if isControl c || (c = '\r' && rest.head? != some '\n') then
      fail s!"TOML files cannot contain control characters: '0x{Hex.lower 2 c.toNat}'"
    else return some c

/-- Consumes one character. -/
def bump : ReadM Unit :=
  modify fun r => match r.rest with
    | [] => r
    | c :: rest => { r with rest, line := if c = '\n' then r.line + 1 else r.line }

/-- Reads the next character. -/
def next : ReadM (Option Char) := do
  let c ← peek
  bump
  return c

/-- Consumes the next character when it is `c`. -/
def accept (c : Char) : ReadM Bool := do
  if (← peek) = some c then bump; return true else return false

/-- How many characters are left, a bound for every loop over them. -/
def budget : ReadM Nat := do return (← get).rest.length + 1

/-- Consumes characters while they satisfy `p`, giving them. -/
def takeWhile (p : Char → Bool) : ReadM (List Char) := do
  let rec go : Nat → List Char → ReadM (List Char)
    | 0, acc => return acc.reverse
    | fuel + 1, acc => do
      match ← peek with
      | some c => if p c then bump; go fuel (c :: acc) else return acc.reverse
      | none => return acc.reverse
  go (← budget) []

/-- Skips spaces and tabs. -/
def skipSpaces : ReadM Unit := do discard (takeWhile isSpace)

/-- Skips a comment after its `#`, up to the line break. -/
def skipComment : ReadM Unit := do discard (takeWhile fun c => !isNewline c)

/-! ### Strings -/

/-- Reads the digits of a `\u` or `\U` escape; `sofar` is the string's text before them. -/
def unicodeDigits (count : Nat) (sofar : List Char) : ReadM (List Char) := do
  let rec go : Nat → List Char → ReadM (List Char)
    | 0, acc => return acc.reverse
    | n + 1, acc => do
      let c ← next
      match c with
      | some d =>
        if Scalar.isHex d then go n (d :: acc)
        else
          let seen := String.ofList (sofar ++ acc.reverse ++ [d])
          let which := if count = 4 then "four" else "eight"
          let letter := if count = 4 then "u" else "U"
          fail s!"expected {which} hexadecimal digits after '\\{letter}', but got {Quote.text seen} instead"
      | none =>
        let seen := String.ofList (sofar ++ acc.reverse)
        let which := if count = 4 then "four" else "eight"
        let letter := if count = 4 then "u" else "U"
        fail s!"expected {which} hexadecimal digits after '\\{letter}', but got {Quote.text seen} instead"
  go count []

/-- Reads an escape after its backslash, giving its raw text; `sofar` is the string's text
before the backslash. -/
def escape (sofar : List Char) : ReadM (List Char) := do
  match ← next with
  | some e =>
    if "btnfr\"\\ \t".toList.contains e then return ['\\', e]
    else if e = 'u' then return ['\\', 'u'] ++ (← unicodeDigits 4 (sofar ++ ['\\', 'u']))
    else if e = 'U' then return ['\\', 'U'] ++ (← unicodeDigits 8 (sofar ++ ['\\', 'U']))
    else fail s!"invalid escape in string '\\{e}'"
  | none => fail "invalid escape in string '\\\x00'"

/-- Reads a basic string after its opening quote, giving its raw text and whether it holds
an escape. -/
def basicRaw : ReadM (List Char × Bool) := do
  let rec go : Nat → List Char → Bool → ReadM (List Char × Bool)
    | 0, acc, esc => return (acc, esc)
    | fuel + 1, acc, esc => do
      match ← next with
      | none => fail "unexpected EOF; expected '\"'"
      | some '"' => return (acc, esc)
      | some '\\' => go fuel (acc ++ (← escape acc)) true
      | some c =>
        if isNewline c then failBefore "strings cannot contain newlines"
        else go fuel (acc ++ [c]) esc
  go (← budget) [] false

/-- Reads a literal string after its opening quote. -/
def literalRaw : ReadM (List Char) := do
  let rec go : Nat → List Char → ReadM (List Char)
    | 0, acc => return acc
    | fuel + 1, acc => do
      match ← next with
      | none => fail "unexpected EOF; expected \"'\""
      | some '\'' => return acc
      | some c =>
        if isNewline c then failBefore "strings cannot contain newlines"
        else go fuel (acc ++ [c])
  go (← budget) []

/-- Reads a multi-line string after its opening delimiter (three `q`), giving its raw text.
Up to two delimiter characters may end the text just before the closing three. -/
def multilineRaw (q : Char) (escapes : Bool) : ReadM (List Char) := do
  let rec go : Nat → List Char → ReadM (List Char)
    | 0, acc => return acc
    | fuel + 1, acc => do
      match ← next with
      | none =>
        if q = '"' then fail "unexpected EOF; expected '\"\"\"'" else fail "unexpected EOF; expected \"'''\""
      | some c =>
        if c = '\\' && escapes then
          match ← peek with
          | some d =>
            if isNewline d then do bump; go fuel (acc ++ ['\\', d])
            else go fuel (acc ++ (← escape acc))
          | none => go fuel (acc ++ (← escape acc))
        else if c = q then
          let saved ← get
          if (← accept q) then
            if (← accept q) then
              if (← peek) = some q then
                let seen := (acc ++ [q, q, q]).reverse
                if seen.take 5 = List.replicate 5 q &&
                    !(escapes && seen.take 6 = List.replicate 5 q ++ ['\\']) then
                  if q = '"' then fail "unexpected '\"\"\"\"\"\"'" else fail "unexpected \"''''''\""
                else do set saved; go fuel (acc ++ [c])
              else return acc
            else do set saved; go fuel (acc ++ [c])
          else go fuel (acc ++ [c])
        else go fuel (acc ++ [c])
  go (← budget) []

/-- Drops a line break that directly follows the opening delimiter. -/
def dropFirstNewline : List Char → List Char
  | '\n' :: rest => rest
  | '\r' :: '\n' :: rest => rest
  | cs => cs

/-- Removes each backslash that ends a line, with all the blanks and line breaks after it. -/
def joinLines (cs : List Char) : List Char :=
  let rec go : Nat → List Char → List Char
    | 0, rest => rest
    | fuel + 1, rest =>
      match rest with
      | [] => []
      | '\\' :: '\\' :: more => '\\' :: '\\' :: go fuel more
      | '\\' :: more =>
        let blanks := more.takeWhile fun c => c = ' ' || c = '\t' || c = '\r' || c = '\n'
        if blanks.contains '\n' then go fuel (more.drop blanks.length)
        else '\\' :: go fuel more
      | c :: more => c :: go fuel more
  go (cs.length + 1) cs

/-- The value of hexadecimal digits. -/
def hexValue (ds : List Char) : Nat := Scalar.digitsValue 16 ds

/-- Replaces the escapes of a string's raw text; a fault is reported at `line`. -/
def unescape (line : Nat) (cs : List Char) : ReadM String := do
  let rec go : Nat → List Char → List Char → ReadM (List Char)
    | 0, _, acc => return acc.reverse
    | fuel + 1, rest, acc =>
      match rest with
      | [] => return acc.reverse
      | '\\' :: e :: more =>
        if e = 'b' then go fuel more ('\x08' :: acc)
        else if e = 't' then go fuel more ('\t' :: acc)
        else if e = 'n' then go fuel more ('\n' :: acc)
        else if e = 'f' then go fuel more ('\x0c' :: acc)
        else if e = 'r' then go fuel more ('\r' :: acc)
        else if e = '"' then go fuel more ('"' :: acc)
        else if e = '\\' then go fuel more ('\\' :: acc)
        else if e = 'u' || e = 'U' then
          let n := if e = 'u' then 4 else 8
          let ds := more.take n
          let v := hexValue ds
          if v > 0x10FFFF || (0xD800 ≤ v && v ≤ 0xDFFF) then
            failAt line s!"Escaped character '\\u{String.ofList ds}' is not valid UTF-8."
          else go fuel (more.drop n) (Char.ofNat v :: acc)
        else failAt line s!"invalid escape: '\\{e}'"
      | c :: more => go fuel more (c :: acc)
  return String.ofList (← go (cs.length + 1) cs [])

/-! ### Keys -/

/-- Reads a bare key part (possibly empty). -/
def barePart : ReadM String := do return String.ofList (← takeWhile isBareChar)

/-- Reads a quoted key part after its opening quote `q`. -/
def quotedPart (q : Char) : ReadM String := do
  if q = '"' then
    let (raw, esc) ← basicRaw
    if esc then unescape (← get).line raw else return String.ofList raw
  else return String.ofList (← literalRaw)

/-- Reads the parts of a key up to its `=`. -/
def keyParts : ReadM Key := do
  skipSpaces
  match ← peek with
  | some '=' | none => fail "unexpected '=': key name appears blank"
  | some '.' => fail "unexpected '.': keys cannot start with a '.'"
  | _ => pure ()
  let rec go : Nat → Key → ReadM Key
    | 0, acc => return acc
    | fuel + 1, acc => do
      skipSpaces
      let part ← match ← peek with
        | some '"' => do bump; quotedPart '"'
        | some '\'' => do bump; quotedPart '\''
        | some '=' | none => fail "unexpected '='"
        | some '.' => fail "unexpected '.'"
        | _ => barePart
      skipSpaces
      match ← next with
      | none => fail "unexpected EOF; expected key separator '='"
      | some '.' => go fuel (acc ++ [part])
      | some '=' => return acc ++ [part]
      | some '\n' => failBefore "expected '.' or '=', but got '\\n' instead"
      | c => fail s!"expected '.' or '=', but got {named c} instead"
  go (← budget) []

/-- Reads the parts of a table name up to its `]`. -/
def nameParts : ReadM Key := do
  let rec go : Nat → Key → ReadM Key
    | 0, acc => return acc
    | fuel + 1, acc => do
      skipSpaces
      let part ← match ← peek with
        | some ']' | none => fail "unexpected end of table name (table names cannot be empty)"
        | some '.' => fail "unexpected table separator (table names cannot be empty)"
        | some '"' => do bump; quotedPart '"'
        | some '\'' => do bump; quotedPart '\''
        | _ => barePart
      skipSpaces
      match ← next with
      | some '.' => go fuel (acc ++ [part])
      | some ']' => return acc ++ [part]
      | c => fail s!"expected '.' or ']' to end table name, but got {named c} instead"
  go (← budget) []

/-! ### The document -/

namespace Table

/-- The value at a key of a table. -/
def get? (t : Table) (k : String) : Option Value := (t.find? (·.1 == k)).map (·.2)

/-- Sets a key of a table, in place when it is there and at the end otherwise. -/
def put (t : Table) (k : String) (v : Value) : Table :=
  if (t.get? k).isSome then t.map fun (k', v') => if k' == k then (k', v) else (k', v')
  else t ++ [(k, v)]

/-- The table at a path, entering the last table of an array of tables; a path that meets
anything else gives the part of it walked, that thing included. -/
def at? : Key → Key → Table → Except Key Table
  | _, [], t => .ok t
  | walked, k :: ks, t =>
    match t.get? k with
    | some (.table inner) => at? (walked ++ [k]) ks inner
    | some (.tables items) =>
      match items.getLast? with
      | some last => at? (walked ++ [k]) ks last
      | none => .error (walked ++ [k])
    | _ => .error (walked ++ [k])

/-- Applies `f` to the table at a path that `at?` finds. -/
def update (f : Table → Table) : Key → Table → Table
  | [], t => f t
  | k :: ks, t =>
    match t.get? k with
    | some (.table inner) => t.put k (.table (update f ks inner))
    | some (.tables items) =>
      match items.getLast? with
      | some last => t.put k (.tables (items.dropLast ++ [update f ks last]))
      | none => t
    | _ => t

/-- Walks a path, creating each missing table on the way; gives the table with the paths
it created, or the part of the path walked up to something that is not a table. -/
def ensure : Key → Key → Table → Except Key (Table × List Key)
  | _, [], t => .ok (t, [])
  | walked, k :: ks, t =>
    let here := walked ++ [k]
    let (t, made) := if (t.get? k).isSome then (t, []) else (t.put k (.table []), [here])
    match t.get? k with
    | some (.table inner) => do
      let (inner, more) ← ensure here ks inner
      .ok (t.put k (.table inner), made ++ more)
    | some (.tables items) =>
      match items.getLast? with
      | some last => do
        let (last, more) ← ensure here ks last
        .ok (t.put k (.tables (items.dropLast ++ [last])), made ++ more)
      | none => .error here
    | _ => .error here

end Table

/-- Marks a table as created only as a parent. -/
def addImplicit (k : Key) : ReadM Unit :=
  modify fun r => if r.implicit.contains k then r else { r with implicit := r.implicit ++ [k] }

/-- Defines a key of the current table. A key may be defined once, except that a table
created only as a parent may be defined once more (and then keeps its contents). -/
def setValue (key : String) (v : Value) : ReadM Unit := do
  let r ← get
  match Table.at? [] r.context r.root with
  | .error walked => failAt r.pos s!"Key '{keyText walked}' has already been defined."
  | .ok hash =>
    let full := r.context ++ [key]
    if (hash.get? key).isSome then
      if r.implicit.contains full then set { r with implicit := r.implicit.erase full }
      else failAt r.pos s!"Key '{keyText full}' has already been defined."
    else set { r with root := Table.update (·.put key v) r.context r.root }

/-- Records the line and kind of a key of the current table (of the table itself for the
empty key). -/
def setKind (key : String) (kind : Kind) (line : Nat) : ReadM Unit :=
  modify fun r =>
    let k := if key.isEmpty then r.context else r.context ++ [key]
    let k := if k.isEmpty then [""] else k
    { r with info := r.info.filter (·.1 != keyText k) ++ [(keyText k, line, kind)] }

/-- Enters the table at a path: its parents are created as needed, and the table itself
is defined (or, for an array of tables, a new table is added to the array). -/
def addContext (key : Key) (array : Bool) : ReadM Unit := do
  let parents := key.dropLast
  let last := key.getLastD ""
  let r ← get
  match Table.ensure [] parents r.root with
  | .error walked => failAt r.pos s!"Key '{keyText walked}' was already created as a hash."
  | .ok (root, made) =>
    set { r with root, context := parents }
    for k in made do addImplicit k
  if array then
    let r ← get
    match Table.at? [] parents r.root with
    | .ok hash =>
      match hash.get? last with
      | none => set { r with root := Table.update (·.put last (.tables [[]])) parents r.root }
      | some (.tables items) =>
        set { r with root := Table.update (·.put last (.tables (items ++ [[]]))) parents r.root }
      | some _ => failAt r.pos s!"Key '{keyText key}' was already created and cannot be used as an array."
    | .error _ => pure ()
  else setValue last (.table [])
  modify fun r => { r with context := key }

/-- Enters the parents of a dotted key one by one, each created only as a parent. -/
def enterParents (parents : Key) : ReadM Unit := do
  for p in parents do
    let k := (← get).context ++ [p]
    addImplicit k
    addContext k false

/-- Records a key as written. -/
def noteKey (k : Key) : ReadM Unit := modify fun r => { r with keys := r.keys ++ [k] }

/-! ### Values -/

/-- Letters, as far as a misspelt `true` or `false` can hold them. -/
def isLetter (c : Char) : Bool :=
  let n := c.toNat
  c.isAlpha || n = 0xAA || n = 0xB5 || n = 0xBA ||
    (0xC0 ≤ n && n ≤ 0x24F && n ≠ 0xD7 && n ≠ 0xF7) || (0x370 ≤ n && n ≤ 0x3FF) ||
    (0x400 ≤ n && n ≤ 0x52F) || (0x5D0 ≤ n && n ≤ 0x5EA) || (0x620 ≤ n && n ≤ 0x64A) ||
    (0x3041 ≤ n && n ≤ 0x30FF) || (0x4E00 ≤ n && n ≤ 0x9FFF) || (0xAC00 ≤ n && n ≤ 0xD7A3)

/-- The kinds of number and date tokens. -/
inductive Token where
  | integer
  | float
  | datetime

/-- The rest of a float after its point or exponent mark. -/
def floatRest (tok : List Char) : ReadM (Token × List Char) := do
  let more ← takeWhile fun c => c.isDigit || "_.-+eE".toList.contains c
  return (.float, tok ++ more)

/-- The rest of a date or time after its first separator; trailing spaces are dropped. -/
def dateRest (tok : List Char) : ReadM (Token × List Char) := do
  let more ← takeWhile fun c => c.isDigit || "-:Tt .Zz+".toList.contains c
  return (.datetime, ((tok ++ more).reverse.dropWhile (· = ' ')).reverse)

/-- The rest of a decimal number after an underscore or a sign and digit. -/
def decimalRest (tok : List Char) : ReadM (Token × List Char) := do
  let more ← takeWhile fun c => c.isDigit || c = '_'
  match ← peek with
  | some c =>
    if c = '.' || c = 'e' || c = 'E' then do bump; floatRest (tok ++ more ++ [c])
    else return (.integer, tok ++ more)
  | none => return (.integer, tok ++ more)

/-- The rest of a number or date after its leading digits so far. -/
def afterDigits (tok : List Char) : ReadM (Token × List Char) := do
  let ds ← takeWhile Char.isDigit
  let tok := tok ++ ds
  match ← peek with
  | some c =>
    if c = '-' || c = ':' then do bump; dateRest (tok ++ [c])
    else if c = '_' then do bump; decimalRest (tok ++ [c])
    else if c = '.' || c = 'e' || c = 'E' then do bump; floatRest (tok ++ [c])
    else return (.integer, tok)
  | none => return (.integer, tok)

/-- The digits of a number with a base prefix, the prefix read. -/
def basedRest (prefixChars : List Char) (isDigit : Char → Bool) (what : String) :
    ReadM (Token × List Char) := do
  let p ← peek
  if !(p.any isDigit) then
    let shown := String.ofList (prefixChars ++ [p.getD (Char.ofNat 0)])
    fail s!"not a{what} number: '{shown}'"
  let more ← takeWhile fun c => isDigit c || c = '_'
  return (.integer, prefixChars ++ more)

/-- A number or date whose first digit was read. -/
def numberOrDate (first : Char) : ReadM (Token × List Char) := do
  if first ≠ '0' then afterDigits [first]
  else
    match ← peek with
    | some c =>
      if c.isDigit then do bump; afterDigits ['0', c]
      else if c = '_' then do bump; decimalRest ['0', '_']
      else if c = '.' || c = 'e' || c = 'E' then do bump; floatRest ['0', c]
      else if c = 'b' then do bump; basedRest ['0', 'b'] (fun d => d = '0' || d = '1') " binary"
      else if c = 'o' then do bump; basedRest ['0', 'o'] (fun d => '0' ≤ d && d ≤ '7') "n octal"
      else if c = 'x' then do bump; basedRest ['0', 'x'] Scalar.isHex " hexidecimal"
      else return (.integer, ['0'])
    | none => return (.integer, ['0'])

/-- A number after its sign. -/
def signedNumber (sign : Char) : ReadM (Token × List Char) := do
  match ← next with
  | some 'i' =>
    if (← accept 'n') then
      if (← accept 'f') then return (.float, [sign, 'i', 'n', 'f'])
      else fail ("invalid float: '" ++ String.ofList [sign, 'i', 'n'] ++ "'")
    else fail ("invalid float: '" ++ String.ofList [sign, 'i'] ++ "'")
  | some 'n' =>
    if (← accept 'a') then
      if (← accept 'n') then return (.float, [sign, 'n', 'a', 'n'])
      else fail ("invalid float: '" ++ String.ofList [sign, 'n', 'a'] ++ "'")
    else fail ("invalid float: '" ++ String.ofList [sign, 'n'] ++ "'")
  | some '.' => fail "floats must start with a digit, not '.'"
  | some c =>
    if c = '0' then
      match ← peek with
      | some p =>
        if p = 'b' || p = 'o' || p = 'x' then
          fail ("cannot use sign with non-decimal numbers: '" ++ String.ofList [sign, '0', p] ++ "'")
      | none => pure ()
    if c.isDigit then decimalRest [sign, c]
    else fail s!"expected a digit but got {named (some c)}"
  | none => fail s!"expected a digit but got {named none}"

/-- A number, date or time token checked and turned into its value; a fault is reported at
the token's line. -/
def tokenValue (t : Token) (tok : List Char) : ReadM Value := do
  let line := (← get).line
  let text := String.ofList tok
  let res : Except String Value := match t with
    | .integer => (Scalar.integer text).map .int
    | .float => (Scalar.float text).map .float
    | .datetime => (Scalar.datetime text).map .datetime
  match res with
  | .ok v => return v
  | .error m => failAt line m

/-- A word that should be `true` or `false`, its first letters `pre` already read. -/
def boolWord (pre : List Char) : ReadM Value := do
  let rest ← takeWhile isLetter
  let w := String.ofList (pre ++ rest)
  if w = "true" then return .bool true
  else if w = "false" then return .bool false
  else fail s!"expected value but found {Quote.text w} instead"

/-- How an array's elements end: a comma, the closing bracket, or something else. -/
def runeOrEnd : Option Char → String
  | some c => "'" ++ c.toString ++ "'"
  | none => "end of file"

/-- Enters an inline table: the current key's table becomes the current table (a new table
at the end of an array of tables when inside an array). Gives the state to return to. -/
def enterInline (inArray : Bool) : ReadM (Key × String) := do
  let outer ← get
  let ctx := outer.context ++ [outer.current]
  modify fun r => { r with context := ctx, current := "" }
  addImplicit ctx
  addContext ctx inArray
  return (outer.context, outer.current)

mutual

/-- Reads a value after its `=` (or inside an array, `inArray`), giving it with the line it
was read on and its kind. -/
def readValue (inArray : Bool) : Nat → ReadM (Value × Nat × Kind)
  | 0 => fail "unexpected EOF; expected value"
  | fuel + 1 => do
  skipSpaces
  match ← next with
  | none => fail "unexpected EOF; expected value"
  | some c =>
    if c.isDigit then
      let (t, tok) ← numberOrDate c
      return (← tokenValue t tok, (← get).line, .primitive)
    else if c = '[' then
      let line := (← get).line
      setKind (← get).current .array line
      elements fuel
      return (.array [], line, .array)
    else if c = '{' then
      let line := (← get).line
      let (ctx, key) ← enterInline inArray
      pairs (ctx ++ [key]) fuel
      modify fun r => { r with context := ctx, current := key }
      return (.table [], line, .table)
    else if c = '"' then
      if (← accept '"') then
        if (← accept '"') then
          let raw ← multilineRaw '"' true
          let line := (← get).line
          let s ← unescape line (joinLines (dropFirstNewline raw))
          return (.str s, line, .primitive)
        else return (.str "", (← get).line, .primitive)
      else
        let (raw, esc) ← basicRaw
        let line := (← get).line
        let s ← if esc then unescape line raw else pure (String.ofList raw)
        return (.str s, line, .primitive)
    else if c = '\'' then
      if (← accept '\'') then
        if (← accept '\'') then
          let raw ← multilineRaw '\'' false
          return (.str (String.ofList (dropFirstNewline raw)), (← get).line, .primitive)
        else return (.str "", (← get).line, .primitive)
      else
        let raw ← literalRaw
        return (.str (String.ofList raw), (← get).line, .primitive)
    else if c = '.' then fail "floats must start with a digit, not '.'"
    else if c = '-' || c = '+' then
      let (t, tok) ← signedNumber c
      return (← tokenValue t tok, (← get).line, .primitive)
    else if c = 'i' || c = 'n' then
      let a1 ← accept 'n'
      let a2 ← if a1 then accept 'f' else pure false
      if a1 && a2 then return (← tokenValue .float [c, 'n', 'f'], (← get).line, .primitive)
      let b1 ← accept 'a'
      let b2 ← if b1 then accept 'n' else pure false
      if b1 && b2 then
        let tok := [c] ++ (if a1 then ['n'] else []) ++ ['a', 'n']
        return (← tokenValue .float tok, (← get).line, .primitive)
      -- the word is read again from the last character read
      let consumed := [c] ++ (if a1 then ['n'] else []) ++ (if b1 then ['a'] else [])
      return (← boolWord [consumed.getLastD c], (← get).line, .primitive)
    else if isLetter c then return (← boolWord [c], (← get).line, .primitive)
    else if c = '\n' then failBefore "expected value but found '\\n' instead"
    else fail s!"expected value but found {Quote.rune c} instead"

/-- Reads array elements, after the `[` or a comma. -/
def elements : Nat → ReadM Unit
  | 0 => fail "unexpected EOF; expected value"
  | fuel + 1 => do
    match ← peek with
    | none => fail "unexpected EOF; expected value"
    | some c =>
      if isSpace c || isNewline c then do bump; elements fuel
      else if c = '#' then do bump; skipComment; elements fuel
      else if c = ',' then do bump; fail "unexpected comma"
      else if c = ']' then bump
      else
        discard (readValue true fuel)
        afterElement fuel

/-- After an array element: blanks, line breaks and comments, then a comma or the `]`. -/
def afterElement : Nat → ReadM Unit
  | 0 => pure ()
  | fuel + 1 => do
    match ← next with
    | some c =>
      if isSpace c || isNewline c then afterElement fuel
      else if c = '#' then do skipComment; afterElement fuel
      else if c = ',' then elements fuel
      else if c = ']' then pure ()
      else fail s!"expected a comma (',') or array terminator (']'), but got {runeOrEnd (some c)}"
    | none => fail s!"expected a comma (',') or array terminator (']'), but got {runeOrEnd none}"

/-- Reads an inline table's pairs into the table at `ctx`, after the `{` or a comma. -/
def pairs (ctx : Key) : Nat → ReadM Unit
  | 0 => pure ()
  | fuel + 1 => do
    match ← peek with
    | none => fail "unexpected EOF; expected key separator '='"
    | some c =>
      if isSpace c then do bump; pairs ctx fuel
      else if isNewline c then do bump; failBefore "newlines not allowed within inline tables"
      else if c = '#' then do bump; skipComment; pairs ctx fuel
      else if c = ',' then do bump; fail "unexpected comma"
      else if c = '}' then bump
      else
        modify fun r => { r with pos := r.line }
        let parts ← keyParts
        let keyLine := (← get).pos
        modify fun r => { r with current := parts.getLastD "" }
        enterParents parts.dropLast
        noteKey ((← get).context ++ [(← get).current])
        let (v, _, kind) ← readValue false fuel
        setValue (← get).current v
        setKind (← get).current kind keyLine
        modify fun r => { r with context := ctx }
        afterPair ctx fuel

/-- After an inline table's pair: blanks and comments, then a comma or the `}`. -/
def afterPair (ctx : Key) : Nat → ReadM Unit
  | 0 => pure ()
  | fuel + 1 => do
    match ← next with
    | some c =>
      if isSpace c then afterPair ctx fuel
      else if isNewline c then failBefore "newlines not allowed within inline tables"
      else if c = '#' then do skipComment; afterPair ctx fuel
      else if c = ',' then do
        skipSpaces
        if (← peek) = some '}' then fail "trailing comma not allowed in inline tables"
        pairs ctx fuel
      else if c = '}' then pure ()
      else fail s!"expected a comma or an inline table terminator '\x7d', but got {runeOrEnd (some c)} instead"
    | none => fail s!"expected a comma or an inline table terminator '\x7d', but got {runeOrEnd none} instead"

end

/-! ### Top level -/

/-- After a top-level item: blanks, then a comment, a line break or the end. -/
def itemEnd : ReadM Unit := do
  let rec go : Nat → ReadM Unit
    | 0 => pure ()
    | n + 1 => do
      match ← next with
      | none => pure ()
      | some c =>
        if c = '#' then skipComment
        else if isSpace c then go n
        else if isNewline c then pure ()
        else fail s!"expected a top-level item to end with a newline, comment, or EOF, but got {Quote.rune c} instead"
  go (← budget)

/-- A table header after its `[`. -/
def header : ReadM Unit := do
  let array ← accept '['
  modify fun r => { r with pos := r.line }
  let parts ← nameParts
  if array then
    match ← next with
    | some ']' => pure ()
    | c => fail s!"expected end of table array name delimiter ']', but got {named c} instead"
  let line := (← get).line
  addContext parts array
  setKind "" (if array then .tables else .table) line
  noteKey parts

/-- A top-level key and its value. -/
def pair (fuel : Nat) : ReadM Unit := do
  let outer := (← get).context
  modify fun r => { r with pos := r.line }
  let parts ← keyParts
  modify fun r => { r with current := parts.getLastD "" }
  enterParents parts.dropLast
  noteKey ((← get).context ++ [(← get).current])
  let (v, line, kind) ← readValue false fuel
  setValue (← get).current v
  setKind (← get).current kind line
  modify fun r => { r with context := outer, current := "" }

/-- Reads top-level items until the end. -/
def items (fuel : Nat) : Nat → ReadM Unit
  | 0 => pure ()
  | n + 1 => do
    match ← peek with
    | none => pure ()
    | some c =>
      if isSpace c || isNewline c then do bump; items fuel n
      else if c = '#' then do bump; skipComment; items fuel n
      else if c = '[' then do bump; header; itemEnd; items fuel n
      else do pair fuel; itemEnd; items fuel n

/-- Reads a TOML text. -/
def read (text : String) : Except SyntaxError Document :=
  let cs := match text.toList with
    | '﻿' :: rest => rest
    | cs => cs
  if (cs.take 6).contains '\x00' then
    .error ⟨1, "", "files cannot contain NULL bytes; probably using UTF-16; TOML files must be UTF-8"⟩
  else
    let fuel := 2 * cs.length + 4
    match (items fuel fuel).run { rest := cs } with
    | .ok (_, r) => .ok ⟨r.root, r.keys, r.info⟩
    | .error e => .error e

end StackLink.Toml
