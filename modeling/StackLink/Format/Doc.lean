import StackLink.Text.Utf8
import StackLink.Text.Hex
import StackLink.Format.Base64
/-!
# Documents and their JSON text

A `Doc` is the tree a result is printed as in a data notation: numbers, text,
byte strings, lists and records whose fields keep their order. A list that was
never made (`Doc.absent`) differs from an empty one only in JSON, where it is
`null`.

The JSON text is the indented form: every element of a non-empty list or record
on a line of its own, two spaces deeper than its container, a record's key and
value separated by `": "`. Text is escaped so that it can be pasted into HTML:
`<`, `>` and `&` are written as `\u003c`, `\u003e` and `\u0026`, every
control character is escaped, and a byte that is not part of a well-formed
UTF-8 character becomes `\ufffd`. Byte strings are written in base64.
-/

namespace StackLink

/-- The tree of a printed result. -/
inductive Doc where
  /-- A list that was never made. -/
  | absent
  | bool (b : Bool)
  | int (i : Int)
  /-- Text, as the bytes it holds; they need not be UTF-8. -/
  | str (s : List UInt8)
  /-- A byte string: base64 text in JSON, a list of numbers in YAML. -/
  | bytes (b : List UInt8)
  /-- An instant, written as text in JSON and as a plain timestamp in YAML. -/
  | stamp (text : String)
  | seq (items : List Doc)
  | record (fields : List (String × Doc))

namespace Doc

/-- Text given as a string. -/
def text (s : String) : Doc := .str (Utf8.encode s)

/-- A list of numbers. -/
def ints (xs : List Int) : Doc := .seq (xs.map .int)

end Doc

namespace Json

/-- The escape of a character below `U+0080`, or none when it stands for itself. -/
def asciiEscape (c : Char) : Option String :=
  if c = '"' then some "\\\""
  else if c = '\\' then some "\\\\"
  else if c = '\n' then some "\\n"
  else if c = '\r' then some "\\r"
  else if c = '\t' then some "\\t"
  else if c.toNat = 8 then some "\\b"
  else if c.toNat = 12 then some "\\f"
  else if c.toNat < 0x20 || c = '<' || c = '>' || c = '&' then
    some ("\\u00" ++ Hex.lower 2 c.toNat)
  else none

/-- The JSON text of one character. -/
def escapeChar (c : Char) : String :=
  match asciiEscape c with
  | some e => e
  | none =>
    if c.toNat = 0x2028 then "\\u2028"
    else if c.toNat = 0x2029 then "\\u2029"
    else c.toString

/-- A quoted JSON string for the text held in some bytes. -/
def quote (s : List UInt8) : String :=
  let body := (Utf8.pieces s).foldl (fun acc p =>
    match p with
    | .inl c => acc ++ escapeChar c
    | .inr _ => acc ++ "\\ufffd") ""
  "\"" ++ body ++ "\""

/-- Two spaces per level. -/
def indent (depth : Nat) : String := String.ofList (List.replicate (2 * depth) ' ')

/-- Elements on lines of their own between two brackets, or the brackets alone when
there are none. -/
def block (opening closing : String) (depth : Nat) (elems : List String) : String :=
  if elems.isEmpty then opening ++ closing
  else
    opening ++ "\n" ++ ",\n".intercalate (elems.map (indent (depth + 1) ++ ·)) ++ "\n" ++
      indent depth ++ closing

mutual

/-- The indented JSON text of a document whose first line stands at `depth`. -/
def render (depth : Nat) : Doc → String
  | .absent => "null"
  | .bool b => if b then "true" else "false"
  | .int i => toString i
  | .str s => quote s
  | .bytes b => "\"" ++ Base64.encode b ++ "\""
  | .stamp t => quote (Utf8.encode t)
  | .seq items => block "[" "]" depth (renderItems depth items)
  | .record fields => block "\x7b" "\x7d" depth (renderFields depth fields)

/-- The texts of the elements of a list at `depth + 1`. -/
def renderItems (depth : Nat) : List Doc → List String
  | [] => []
  | d :: ds => render (depth + 1) d :: renderItems depth ds

/-- The texts of the fields of a record at `depth + 1`. -/
def renderFields (depth : Nat) : List (String × Doc) → List String
  | [] => []
  | (k, d) :: fs => (quote (Utf8.encode k) ++ ": " ++ render (depth + 1) d) :: renderFields depth fs

end

end Json

/-- The indented JSON text of a document. -/
def Doc.json (d : Doc) : String := Json.render 0 d

end StackLink
