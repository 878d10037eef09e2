/-!
# Text in aligned columns

Lines of text whose cells are ended by tabs are laid out in columns. A column is
a run of consecutive lines that all have a tab-ended cell at its place; each of
its cells is padded with spaces to the width of the widest plus the padding. The
text after a line's last tab belongs to no column and is written as it is, so a
line without tabs ends every run through it. Widths count characters. A form
feed ends the line and every run through it, and is written as a line feed.
-/

namespace StackLink.Columns

/-- A line split into its tab-ended cells and the text after the last tab. -/
structure Line where
  cells : List String
  tail : String

/-- Splits a line at its tabs (a vertical tab ends a cell too). -/
def Line.ofString (s : String) : Line :=
  let parts := (s.split fun (c : Char) => c = '\t' || c.toNat = 11).toList.map (·.toString)
  ⟨parts.dropLast, parts.getLastD ""⟩

/-- The run of lines around line `i` that have a cell at column `col`: the lines before
it, in order, and the lines from it on, each given as its cells. -/
def runAround (cells : List (List String)) (i col : Nat) : List (List String) :=
  let has (l : List String) := col < l.length
  let before := ((cells.take i).reverse.takeWhile has).reverse
  let after := (cells.drop i).takeWhile has
  before ++ after

/-- The width of column `col` in the run through line `i`. -/
def width (padding : Nat) (cells : List (List String)) (i col : Nat) : Nat :=
  ((runAround cells i col).map fun l => (l.getD col "").length + padding).foldl max 0

/-- Pads a cell with spaces to a width. -/
def padTo (w : Nat) (s : String) : String := s ++ String.ofList (List.replicate (w - s.length) ' ')

/-- Lays out a block of lines that no form feed divides. -/
def alignBlock (padding : Nat) (lines : List Line) : List String :=
  let cells := lines.map (·.cells)
  lines.zipIdx.map fun (l, i) =>
    String.join (l.cells.zipIdx.map fun (c, col) => padTo (width padding cells i col) c) ++ l.tail

/-- Lays out text in columns, with `padding` spaces after the widest cell of each. -/
def align (padding : Nat) (text : String) : String :=
  let blocks := (text.split fun (c : Char) => c.toNat = 12).toList.map fun b =>
    alignBlock padding ((b.toString.splitOn "\n").map Line.ofString)
  "\n".intercalate (blocks.map ("\n".intercalate ·))

end StackLink.Columns
