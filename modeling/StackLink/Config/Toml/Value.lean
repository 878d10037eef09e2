import StackLink.Text.Quote
/-!
# TOML documents

A TOML document is a table: keys, in the order they were first written, mapped
to values. A value is a string, an integer, a float, a boolean, a date or time,
an array, a table, or an array of tables (what `[[name]]` headers build).
Floats and dates keep the text they were written with, which is all that is ever
shown of them.

A key path is written with its parts joined by dots; a part that is not a bare
key (letters, digits, `_` and `-`) is quoted, and the empty part is `""`.
-/

namespace StackLink.Toml

/-- A dotted key path, outermost part first. -/
abbrev Key := List String

/-- Characters of a bare key: ASCII letters and digits, `_` and `-`. -/
def isBareChar (c : Char) : Bool :=
  ('a' ≤ c && c ≤ 'z') || ('A' ≤ c && c ≤ 'Z') || ('0' ≤ c && c ≤ '9') || c = '_' || c = '-'

/-- The text of one key part. -/
def partText (p : String) : String :=
  if p.isEmpty then "\"\"" else if p.all isBareChar then p else Quote.text p

/-- The text of a key path. -/
def keyText (k : Key) : String := ".".intercalate (k.map partText)

/-- A TOML value. -/
inductive Value where
  | str (s : String)
  | int (i : Int)
  /-- A float, as written without its underscores. -/
  | float (text : String)
  | bool (b : Bool)
  /-- A date, time or date-time, normalized to a `T` separator and an upper-case `Z`. -/
  | datetime (text : String)
  | array (items : List Value)
  | table (entries : List (String × Value))
  /-- The tables of a `[[name]]` header, in order. -/
  | tables (items : List (List (String × Value)))
  deriving Inhabited

/-- The entries of a table. -/
abbrev Table := List (String × Value)

/-- The name of a value's type as the decoder states it in its errors. -/
def Value.typeName : Value → String
  | .str _ => "string"
  | .int _ => "int64"
  | .float _ => "float64"
  | .bool _ => "bool"
  | .datetime _ => "time.Time"
  | .array _ => "[]interface {}"
  | .table _ => "map[string]interface {}"
  | .tables _ => "[]map[string]interface {}"

/-- What kind of value a key holds, as recorded while reading. -/
inductive Kind where
  | primitive
  | array
  | table
  | tables
  deriving DecidableEq

/-- A read document: the table, every key in the order it was written, and for each key
the line of its value and its kind. -/
structure Document where
  root : Table
  keys : List Key
  info : List (String × Nat × Kind)

/-- The line recorded for a key, `0` when none is. -/
def Document.lineOf (d : Document) (k : Key) : Nat :=
  match d.info.find? (·.1 == keyText k) with
  | some (_, l, _) => l
  | none => 0

/-- A reading error: the line, the key last read (empty for none) and the cause. -/
structure SyntaxError where
  line : Nat
  lastKey : String
  message : String

/-- The text of a reading error. -/
def SyntaxError.text (e : SyntaxError) : String :=
  if e.lastKey.isEmpty then s!"toml: line {e.line}: {e.message}"
  else s!"toml: line {e.line} (last key {Quote.text e.lastKey}): {e.message}"

end StackLink.Toml
