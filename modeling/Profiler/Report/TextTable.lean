/-
# Tables of text

A table is shown without lines. Each cell has a blank on either side and is
padded to the width of its column, which is that of the widest line in it. A
cell of several lines makes its row higher.

Key definitions: `TextCell`, `TextTable.widths`, `TextTable.lines`,
`TextTable.render`.
-/
import Profiler.Text.Blank
import Profiler.Text.Width

namespace Profiler

/-- A cell, whose text is at the left or at the right. -/
structure TextCell where
  text : String
  atRight : Bool := false
  deriving DecidableEq, Repr, Inhabited

namespace TextCell

def lines (c : TextCell) : List String :=
  (splitWhere (· == '\n') c.text.toList).map String.ofList

def width (c : TextCell) : Nat := (c.lines.map displayWidth).foldl max 0

/-- A line of a cell that is so wide. -/
def padded (c : TextCell) (width line : Nat) : String :=
  match c.lines[line]? with
  | none => String.ofList (List.replicate (width + 2) ' ')
  | some text =>
    let room := String.ofList (List.replicate (width - displayWidth text) ' ')
    if c.atRight then s!" {room}{text} " else s!" {text}{room} "

end TextCell

/-- Rows of cells, as many in each. -/
abbrev TextTable := List (List TextCell)

namespace TextTable

def widths : TextTable → List Nat
  | [] => []
  | [row] => row.map TextCell.width
  | row :: rest => List.zipWith max (row.map TextCell.width) (widths rest)

def rowLines (widths : List Nat) (row : List TextCell) : List String :=
  let height := (row.map fun c => c.lines.length).foldl max 0
  (List.range height).map fun line =>
    String.join ((row.zip widths).map fun (c, width) => c.padded width line)

def lines (t : TextTable) : List String := t.flatMap (rowLines t.widths)

def render (t : TextTable) : String := "\n".intercalate t.lines

end TextTable
end Profiler
