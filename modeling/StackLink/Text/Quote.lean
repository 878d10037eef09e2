import StackLink.Text.Hex
import StackLink.Text.Utf8

/-!
# Quoted names

Error messages quote names and other user text between double quotes, with
backslash escapes, so that any byte string reads back unambiguously. A quote
and a backslash are escaped; a printable character stands for itself; the
seven control characters with a letter escape (`\a \b \f \n \r \t \v`) use it;
other control characters and stray bytes are `\xhh`; any other character that
does not print is `\uhhhh`, or `\Uhhhhhhhh` above the basic plane.

Printable here is: any character that is not a control character, a space other
than the ordinary blank, a line or paragraph separator, an invisible format
character, a private-use character or a noncharacter.
-/

namespace StackLink.Quote

/-- Whether a character prints as itself inside quotes. -/
def isPrintable (c : Char) : Bool :=
  let n := c.toNat
  if n < 0x20 ∨ (0x7F ≤ n ∧ n < 0xA0) then false
  else if n < 0x7F then true
  else !(n = 0xA0 ∨ n = 0xAD ∨ n = 0x1680 ∨ (0x2000 ≤ n ∧ n ≤ 0x200F) ∨
      (0x2028 ≤ n ∧ n ≤ 0x202F) ∨ (0x205F ≤ n ∧ n ≤ 0x206F) ∨ n = 0x3000 ∨ n = 0xFEFF ∨
      (0x0600 ≤ n ∧ n ≤ 0x0605) ∨ n = 0x061C ∨ n = 0x06DD ∨ n = 0x070F ∨ n = 0x180E ∨
      (0xD800 ≤ n ∧ n ≤ 0xF8FF) ∨ (0xFFF9 ≤ n ∧ n ≤ 0xFFFB) ∨ n = 0xFFFE ∨ n = 0xFFFF ∨
      n ≥ 0xF0000)

/-- The escaped form of one character. -/
def escapeChar (c : Char) : String :=
  if c = '"' then "\\\"" else if c = '\\' then "\\\\"
  else if isPrintable c then c.toString
  else if c = '\x07' then "\\a" else if c = '\x08' then "\\b"
  else if c = '\x0c' then "\\f" else if c = '\n' then "\\n"
  else if c = '\r' then "\\r" else if c = '\t' then "\\t"
  else if c = '\x0b' then "\\v"
  else if c.toNat < 0x20 ∨ c.toNat = 0x7F then "\\x" ++ Hex.lower 2 c.toNat
  else if c.toNat < 0x10000 then "\\u" ++ Hex.lower 4 c.toNat
  else "\\U" ++ Hex.lower 8 c.toNat

/-- A byte string between double quotes, escaped. -/
def bytes (bs : List UInt8) : String :=
  "\"" ++ String.join ((Utf8.pieces bs).map fun
    | .inl c => escapeChar c
    | .inr b => "\\x" ++ Hex.lower 2 b.toNat) ++ "\""

/-- A text between double quotes, escaped. -/
def text (s : String) : String := bytes (Utf8.encode s)

/-- A character between single quotes, escaped the same way except that a single quote is
escaped and a double quote is not. -/
def rune (c : Char) : String :=
  "'" ++ (if c = '\'' then "\\'" else if c = '"' then "\"" else escapeChar c) ++ "'"

/-- Whether a text reads unchanged between backquotes on one line: no control character but
the tab, no backquote and no byte order mark. -/
def canBackquote (s : String) : Bool :=
  s.all fun c => !((c.toNat < 0x20 && c != '\t') || c.toNat = 0x60 || c.toNat = 0x7F || c.toNat = 0xFEFF)

/-- A text between backquotes when it reads unchanged there, else between double quotes. -/
def backquoted (s : String) : String :=
  if canBackquote s then "`" ++ s ++ "`" else text s

end StackLink.Quote
