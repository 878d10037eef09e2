import StackLink.Format.Yaml
import StackLink.Format.Columns
/-!
# Reports

A result is printed in one of three styles. As a table it is laid out in
columns: a list of records under upper-case headers, one record as
`Field:` lines, a byte string in spaced hexadecimal, other values one to a line,
and an empty list as `Nothing found.`. As JSON or YAML it is its document
(`StackLink.Doc`). A `Report` holds both faces of one result.
-/

namespace StackLink

/-- How results are printed. -/
inductive Style where
  | table
  | json
  | yaml
  deriving DecidableEq, Repr

namespace Style

/-- The names of the styles, as offered to a user. -/
def names : List String := ["table", "json", "yaml"]

/-- The style a name asks for: `json` or `yaml` in any case, and a table for every other name. -/
def ofName (s : String) : Style :=
  let s := s.toLower
  if s = "json" then .json else if s = "yaml" then .yaml else .table

end Style

/-- What a result looks like as a table. -/
inductive Sheet where
  /-- A byte string, in spaced upper-case hexadecimal. -/
  | bytes (b : List UInt8)
  /-- A list of records, under a header line. -/
  | rows (headers : List String) (rows : List (List String))
  /-- One record, a `Field:` line per field. -/
  | fields (pairs : List (String × String))
  /-- A list of values, one to a line. -/
  | items (xs : List String)
  /-- A single value. -/
  | line (s : String)

namespace Sheet

/-- Whether the sheet is an empty list. -/
def isEmpty : Sheet → Bool
  | .bytes b => b.isEmpty
  | .rows _ rs => rs.isEmpty
  | .items xs => xs.isEmpty
  | _ => false

/-- The lines of the sheet, cells ended by tabs. -/
def cells : Sheet → List String
  | .bytes b => [Hex.spaced b]
  | .rows hs rs => ("\t".intercalate hs) :: rs.map ("\t".intercalate ·)
  | .fields ps => ps.map fun (k, v) => k ++ ":\t" ++ v
  | .items xs => xs
  | .line s => [s]

/-- The text of the sheet: its lines in columns two spaces apart. -/
def render (s : Sheet) : String :=
  if s.isEmpty then "Nothing found.\n"
  else Columns.align 2 (String.join (s.cells.map (· ++ "\n")))

end Sheet

/-- A result, as a table and as a document. -/
structure Report where
  sheet : Sheet
  doc : Doc

namespace Report

/-- The text of a result in a style; a document's JSON text ends with a line feed. -/
def render (style : Style) (r : Report) : String :=
  match style with
  | .table => r.sheet.render
  | .json => r.doc.json ++ "\n"
  | .yaml => r.doc.yaml

/-- A byte string. -/
def ofBytes (b : List UInt8) : Report := ⟨.bytes b, .bytes b⟩

/-- A list of texts. -/
def ofTexts (xs : List String) : Report := ⟨.items xs, .seq (xs.map Doc.text)⟩

/-- A single text. -/
def ofText (s : String) : Report := ⟨.line s, .text s⟩

/-- A list of records, each with the same fields, given by header and cell texts and by
document. -/
def ofRows (headers : List String) (rows : List (List String × Doc)) : Report :=
  ⟨.rows (headers.map String.toUpper) (rows.map (·.1)), .seq (rows.map (·.2))⟩

end Report

/-- The text of a list of numbers inside brackets, separated by spaces. -/
def bracketed (xs : List Int) : String := "[" ++ " ".intercalate (xs.map toString) ++ "]"

end StackLink
