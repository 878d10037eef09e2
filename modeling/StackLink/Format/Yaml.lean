import StackLink.Format.Doc
/-!
# YAML text of a document

Block style throughout. A record is one `key: value` line per field; a list is
one `- item` line per element; an empty list is `[]` and an empty record `{}`.
A list or record under a key starts on the next line, indented to the next
multiple of four columns; an element's own record or list starts right after
its dash, two columns in. Byte strings are lists of numbers.

Text is written plain when that reads back as the same text, and otherwise
quoted. Plain text that would read back as something else — `""`, `null`,
`true`, `12`, `0x1F`, `1.5e3`, a date, the old booleans `yes` and `off`, the
base-60 numbers `1:30` — is double-quoted. Text that the block grammar would
misread — a leading indicator such as `-  ` or `#`, a `": "` inside, spaces at
either end — is single-quoted, and text that even that cannot hold (tabs,
characters outside the printable set) is double-quoted with escapes. Text with
a line feed is a literal block. Bytes that are not UTF-8 are base64 under the
`!!binary` tag.
-/

namespace StackLink.Yaml

/-! ### Characters -/

/-- The printable characters: line feed, ASCII from space to `~`, and the basic
plane from `U+00A0` but for the surrogates, the byte-order mark and `U+FFFE`/`U+FFFF`. -/
def isPrintable (c : Char) : Bool :=
  let n := c.toNat
  n == 0x0A || (0x20 ≤ n && n ≤ 0x7E) || (0xA0 ≤ n && n ≤ 0xD7FF) ||
    (0xE000 ≤ n && n ≤ 0xFFFD && n != 0xFEFF)

/-- Line breaks: carriage return, line feed, next line and the two Unicode separators. -/
def isBreak (c : Char) : Bool :=
  c = '\r' || c = '\n' || c.toNat = 0x85 || c.toNat = 0x2028 || c.toNat = 0x2029

/-- A blank is a space or a tab. -/
def isBlank (c : Char) : Bool := c = ' ' || c = '\t'

/-- What may follow an indicator for it to count: a blank or the end. -/
def blankOrEnd : List Char → Bool
  | [] => true
  | c :: _ => isBlank c

/-! ### Text that would read back as something else -/

/-- The value of some digits in a base, when there is at least one and all are digits of it. -/
def digitsValue (base : Nat) (ds : List Char) : Option Nat :=
  if ds.isEmpty then none
  else ds.foldlM (fun acc c =>
    let d := if '0' ≤ c ∧ c ≤ '9' then c.toNat - 48
      else if 'a' ≤ c ∧ c ≤ 'z' then c.toNat - 87
      else if 'A' ≤ c ∧ c ≤ 'Z' then c.toNat - 55 else 99
    if d < base then some (acc * base + d) else none) 0

/-- The value of an unsigned integer with an optional base prefix (`0x`, `0o`, `0b`, or a
leading `0` for octal). -/
def magnitude? : List Char → Option Nat
  | '0' :: x :: ds =>
    if x = 'x' ∨ x = 'X' then digitsValue 16 ds
    else if x = 'o' ∨ x = 'O' then digitsValue 8 ds
    else if x = 'b' ∨ x = 'B' then digitsValue 2 ds
    else digitsValue 8 (x :: ds)
  | ds => digitsValue 10 ds

/-- Whether text is an integer that fits 64 bits, signed or (without a sign) unsigned. -/
def isInteger : List Char → Bool
  | '-' :: ds => (magnitude? ds).any (· ≤ Nat.pow 2 63)
  | '+' :: ds => (magnitude? ds).any (· < Nat.pow 2 63)
  | ds => (magnitude? ds).any (· < Nat.pow 2 64)

/-- Splits off the longest prefix of decimal digits. -/
def digitRun (cs : List Char) : List Char × List Char :=
  (cs.takeWhile Char.isDigit, cs.dropWhile Char.isDigit)

/-- The least value that a double cannot hold: above it every decimal rounds to infinity. -/
def overflowBound : Nat := Nat.pow 2 1024 - Nat.pow 2 970

/-- Whether `m · 10^e` is too large for a double. -/
def exceedsDouble (m : Nat) (e : Int) : Bool :=
  if m = 0 then false
  else
    let k : Int := (Nat.toDigits 10 m).length
    if k + e ≤ 308 then false
    else if k + e ≥ 310 then true
    else if 0 ≤ e then decide (overflowBound ≤ m * Nat.pow 10 e.toNat)
    else decide (overflowBound * Nat.pow 10 (-e).toNat ≤ m)

/-- The value of an optional exponent `e`, `e+5`, `E-5`, which must end the text. -/
def exponent? : List Char → Option Int
  | [] => some 0
  | e :: rest =>
    if e = 'e' ∨ e = 'E' then
      match rest with
      | '-' :: ds => (digitsValue 10 ds).map fun n => -(n : Int)
      | '+' :: ds => (digitsValue 10 ds).map fun n => (n : Int)
      | ds => (digitsValue 10 ds).map fun n => (n : Int)
    else none

/-- A decimal `12`, `1.`, `1.5` or `.5`, optionally with an exponent, that a double can hold. -/
def isUnsignedFloat (cs : List Char) : Bool :=
  let (whole, rest) := digitRun cs
  let (frac, afterFrac, hasPoint) := match rest with
    | '.' :: r => ((digitRun r).1, (digitRun r).2, true)
    | r => ([], r, false)
  let shapeOk := if whole.isEmpty then hasPoint && !frac.isEmpty else true
  match exponent? afterFrac with
  | some e => shapeOk && !exceedsDouble ((digitsValue 10 (whole ++ frac)).getD 0) (e - frac.length)
  | none => false

/-- A decimal with an optional sign. -/
def isFloat : List Char → Bool
  | '-' :: cs => isUnsignedFloat cs
  | '+' :: cs => isUnsignedFloat cs
  | cs => isUnsignedFloat cs

/-- Exactly `n` digits and their value. -/
def fixedDigits (n : Nat) (cs : List Char) : Option (Nat × List Char) :=
  let ds := cs.take n
  if ds.length = n ∧ ds.all Char.isDigit then (digitsValue 10 ds).map (·, cs.drop n) else none

/-- One or two digits and their value. -/
def shortNumber (cs : List Char) : Option (Nat × List Char) :=
  match cs with
  | a :: b :: rest =>
    if a.isDigit then
      if b.isDigit then some ((a.toNat - 48) * 10 + (b.toNat - 48), rest)
      else some (a.toNat - 48, b :: rest)
    else none
  | [a] => if a.isDigit then some (a.toNat - 48, []) else none
  | [] => none

/-- The days of a month of the Gregorian calendar. -/
def daysIn (year month : Nat) : Nat :=
  if month = 2 then
    if year % 4 = 0 ∧ (year % 100 ≠ 0 ∨ year % 400 = 0) then 29 else 28
  else if month = 4 ∨ month = 6 ∨ month = 9 ∨ month = 11 then 30 else 31

/-- A time zone: `Z` or `±hh:mm`, ending the text. -/
def isZone : List Char → Bool
  | ['Z'] => true
  | [s, h1, h2, ':', m1, m2] =>
    (s = '+' ∨ s = '-') && [h1, h2, m1, m2].all Char.isDigit &&
      (h1.toNat - 48) * 10 + (h2.toNat - 48) ≤ 24 && (m1.toNat - 48) * 10 + (m2.toNat - 48) ≤ 60
  | _ => false

/-- An optional fraction of a second: a point or comma and at least one digit. -/
def dropFraction : List Char → List Char
  | p :: d :: rest => if (p = '.' ∨ p = ',') ∧ d.isDigit then rest.dropWhile Char.isDigit else p :: d :: rest
  | cs => cs

/-- A time of day `h:m:s` with an optional fraction, and what follows it. -/
def clock? (cs : List Char) : Option (List Char) := do
  let (h, r) ← shortNumber cs
  let r ← match r with | ':' :: r => some r | _ => none
  let (m, r) ← shortNumber r
  let r ← match r with | ':' :: r => some r | _ => none
  let (s, r) ← shortNumber r
  if h < 24 ∧ m < 60 ∧ s < 60 then some (dropFraction r) else none

/-- A date `yyyy-m-d`, alone or followed by a time with a zone (after `T` or `t`) or without
one (after a space). -/
def isTimestamp (cs : List Char) : Bool :=
  match fixedDigits 4 cs with
  | some (year, '-' :: r) =>
    match shortNumber r with
    | some (month, '-' :: r) =>
      match shortNumber r with
      | some (day, r) =>
        1 ≤ month && month ≤ 12 && 1 ≤ day && day ≤ daysIn year month &&
          match r with
          | [] => true
          | c :: t =>
            if c = 'T' ∨ c = 't' then (clock? t).any isZone
            else if c = ' ' then (clock? t).any List.isEmpty
            else false
      | none => false
    | _ => false
  | _ => false

/-- The plain texts that read as null, booleans or special numbers. -/
def reserved : List String :=
  ["true", "True", "TRUE", "false", "False", "FALSE", "~", "null", "Null", "NULL",
   ".nan", ".NaN", ".NAN", ".inf", ".Inf", ".INF", "+.inf", "+.Inf", "+.INF",
   "-.inf", "-.Inf", "-.INF"]

/-- The booleans of the older standard, still quoted so that its readers agree. -/
def oldBooleans : List String :=
  ["y", "Y", "yes", "Yes", "YES", "on", "On", "ON", "n", "N", "no", "No", "NO", "off", "Off", "OFF"]

/-- A sexagesimal number such as `1:30` or `-2:05:10.5`. -/
def isSexagesimal (cs : List Char) : Bool :=
  let cs := match cs with | '-' :: r => r | '+' :: r => r | r => r
  match cs with
  | d :: r =>
    if !d.isDigit then false
    else
      let r := r.dropWhile fun c => c.isDigit || c = '_'
      groups r.length r false
  | [] => false
where
  /-- One or more `:n` groups (`n` below 60 when it has two digits), then an optional
  fraction. -/
  groups : Nat → List Char → Bool → Bool
    | fuel + 1, ':' :: r, _ =>
      let (ds, rest) := digitRun r
      (ds.length = 1 || (ds.length = 2 && ds.head? != none && ds.headD '0' ≤ '5')) &&
        groups fuel rest true
    | _, '.' :: r, seen => seen && r.all fun c => c.isDigit || c = '_'
    | _, [], seen => seen
    | _, _, _ => false

/-- Whether plain text reads back as the same text. -/
def readsAsText (s : String) : Bool :=
  match s.toList with
  | [] => false
  | c :: _ =>
    if reserved.contains s then false
    else if c.isDigit || c = '+' || c = '-' then
      let plain := s.toList.filter (· ≠ '_')
      !(isTimestamp s.toList || isInteger plain || isFloat plain)
    else if c = '.' then !isUnsignedFloat s.toList
    else true

/-- Whether text may be written without quotes as far as its meaning goes. -/
def plainReadsBack (s : String) : Bool :=
  readsAsText s && !isSexagesimal s.toList && !oldBooleans.contains s

/-! ### What the block grammar allows -/

/-- Which styles can hold some text. -/
structure Allowed where
  plain : Bool
  singleQuoted : Bool
  literal : Bool

/-- Whether a character at a position other than the first is an indicator, given the
characters after it and whether a blank or break comes before it. -/
def laterIndicator (c : Char) (after : List Char) (afterBlank : Bool) : Bool :=
  (c = ':' && blankOrEnd after) || (c = '#' && afterBlank)

/-- Whether the first character is an indicator, given the characters after it. -/
def firstIndicator (c : Char) (after : List Char) : Bool :=
  "#,[]\x7b\x7d&*!|>'\"%@".toList.contains c || c.toNat = 96 ||
    ((c = '?' || c = ':' || c = '-') && blankOrEnd after)

/-- Scans the characters after the first: an indicator among them, a space next to a
break, and a break. -/
def scanLater : List Char → Char → Bool × Bool × Bool
  | [], _ => (false, false, false)
  | c :: rest, prev =>
    let (ind, mixed, brk) := scanLater rest c
    let prevBlankish := isBlank prev || isBreak prev || prev.toNat = 0
    (ind || laterIndicator c rest prevBlankish,
     mixed || (c = ' ' && isBreak prev) || (isBreak c && prev = ' '),
     brk || isBreak c)

/-- What the block grammar allows for some non-empty text. -/
def allowed (cs : List Char) : Allowed :=
  match cs with
  | [] => ⟨true, true, false⟩
  | c :: rest =>
    let (laterInd, mixed, laterBreak) := scanLater rest c
    let indicator := firstIndicator c rest || laterInd ||
      cs.take 3 = ['-', '-', '-'] || cs.take 3 = ['.', '.', '.']
    let tabs := cs.contains '\t'
    let special := cs.any fun c => c ≠ '\t' && !isPrintable c
    let lineBreaks := isBreak c || laterBreak
    let last := cs.getLastD c
    let edges := c = ' ' || isBreak c || last = ' ' || isBreak last
    { plain := !(edges || mixed || tabs || special || lineBreaks || indicator)
      singleQuoted := !(mixed || tabs || special)
      literal := !(last = ' ' || mixed || special) }

/-! ### Writing text -/

/-- A character inside double quotes. -/
def doubleQuotedChar (c : Char) : String :=
  if isPrintable c && !isBreak c && c ≠ '"' && c ≠ '\\' then c.toString
  else
    "\\" ++ match c.toNat with
    | 0x00 => "0" | 0x07 => "a" | 0x08 => "b" | 0x09 => "t" | 0x0A => "n" | 0x0B => "v"
    | 0x0C => "f" | 0x0D => "r" | 0x1B => "e" | 0x22 => "\"" | 0x5C => "\\" | 0x85 => "N"
    | 0xA0 => "_" | 0x2028 => "L" | 0x2029 => "P"
    | n => if n ≤ 0xFF then "x" ++ Hex.upper 2 n
      else if n ≤ 0xFFFF then "u" ++ Hex.upper 4 n else "U" ++ Hex.upper 8 n

/-- Text in double quotes, with escapes. -/
def doubleQuoted (cs : List Char) : String :=
  "\"" ++ String.join (cs.map doubleQuotedChar) ++ "\""

/-- Text in single quotes, a quote inside doubled. -/
def singleQuoted (cs : List Char) : String :=
  "'" ++ String.join (cs.map fun c => if c = '\'' then "''" else c.toString) ++ "'"

/-- Spaces for an indentation. -/
def pad (n : Nat) : String := String.ofList (List.replicate n ' ')

/-- A literal block: the header with its hints, then the lines of the text at `indent`
columns, an empty line left empty. The header says how many columns (`4`) when the text
begins with a space or break, and `-` when no line break ends the text, `+` when more than
one does. -/
def literal (indent : Nat) (cs : List Char) : String × List String :=
  let indentHint := match cs with
    | c :: _ => if c = ' ' || isBreak c then "4" else ""
    | [] => ""
  let rev := cs.reverse
  let chomp := match rev with
    | [] => "-"
    | c :: rest =>
      if !isBreak c then "-"
      else match rest with
        | [] => "+"
        | d :: _ => if isBreak d then "+" else ""
  let body := String.ofList cs
  let lines := body.splitOn "\n"
  let lines := if body.endsWith "\n" then lines.dropLast else lines
  ("|" ++ indentHint ++ chomp, lines.map fun l => if l.isEmpty then "" else pad indent ++ l)

/-- A text scalar: the part on the line of its key or dash, and the lines under it
(a literal block's content at `indent`). -/
def textScalar (indent : Nat) (bytes : List UInt8) : String × List String :=
  if !Utf8.isValid bytes then ("!!binary " ++ Base64.encode bytes, [])
  else
    let s := Utf8.lossy bytes
    let cs := s.toList
    let ok := allowed cs
    if cs.contains '\n' then
      if ok.literal then literal indent cs else (doubleQuoted cs, [])
    else if plainReadsBack s then
      if ok.plain then (s, [])
      else if ok.singleQuoted then (singleQuoted cs, [])
      else (doubleQuoted cs, [])
    else (doubleQuoted cs, [])

/-! ### Layout -/

/-- The indentation of a list or record under a key at `n` columns: the next multiple of four. -/
def under (n : Nat) : Nat := 4 * (n / 4 + 1)

/-- Whether a document is written as lines of its own (a non-empty list or record). -/
def isBlock : Doc → Bool
  | .seq (_ :: _) => true
  | .bytes (_ :: _) => true
  | .record (_ :: _) => true
  | _ => false

/-- A scalar: the part on its line and any lines under it. -/
def scalar (indent : Nat) : Doc → String × List String
  | .absent => ("[]", [])
  | .bool b => (if b then "true" else "false", [])
  | .int i => (toString i, [])
  | .str s => textScalar indent s
  | .bytes _ => ("[]", [])
  | .stamp t => (t, [])
  | .seq _ => ("[]", [])
  | .record _ => ("\x7b\x7d", [])

/-- Puts a dash before a block that starts at `n + 2` columns. -/
def dashed (n : Nat) : List String → List String
  | [] => []
  | l :: ls => (pad n ++ "- " ++ String.ofList (l.toList.drop (n + 2))) :: ls

mutual

/-- The lines of a document that starts at `n` columns. -/
def lines (n : Nat) : Doc → List String
  | .seq items => itemLines n items
  | .bytes b => b.map fun x => pad n ++ "- " ++ toString x.toNat
  | .record fields => fieldLines n fields
  | d => let (h, rest) := scalar (n + 4) d; (pad n ++ h) :: rest

/-- The lines of the elements of a list at `n` columns. -/
def itemLines (n : Nat) : List Doc → List String
  | [] => []
  | d :: ds =>
    let first := if isBlock d then dashed n (lines (n + 2) d)
      else let (h, rest) := scalar (n + 2) d; (pad n ++ "- " ++ h) :: rest
    first ++ itemLines n ds

/-- The lines of the fields of a record at `n` columns. -/
def fieldLines (n : Nat) : List (String × Doc) → List String
  | [] => []
  | (k, d) :: fs =>
    let first := if isBlock d then (pad n ++ k ++ ":") :: lines (under n) d
      else let (h, rest) := scalar (under n) d; (pad n ++ k ++ ": " ++ h) :: rest
    first ++ fieldLines n fs

end

end StackLink.Yaml

namespace StackLink

/-- The YAML text of a document, each line ended by a line feed. -/
def Doc.yaml (d : Doc) : String :=
  let ls := if Yaml.isBlock d then Yaml.lines 0 d
    else let (h, rest) := Yaml.scalar 4 d; h :: rest
  String.join (ls.map (· ++ "\n"))

end StackLink
