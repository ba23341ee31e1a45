import ClassAtlas.Text.Cut

/-!
# Printed tables

A table is printed with a line of headers, a line of dashes and a line for each row.
Columns are two blanks apart.  A column is as wide as its largest cell is in bytes, and
cells are filled up with blanks by their number of characters; the last cell of a line is
left as it is.
-/

namespace ClassAtlas.Report

def cellWidth (cell : String) : Nat :=
  Text.byteLength cell.toList

/-- A line of one character. -/
def ruler (character : Char) (width : Nat) : String :=
  String.ofList (List.replicate width character)

/-- A cell filled up with blanks. -/
def padded (width : Nat) (cell : String) : String :=
  cell ++ ruler ' ' (width - cell.length)

/-- The widths of columns that have room for one more row.  Columns that the row does not
reach stay as they are. -/
def widen : List Nat → List String → List Nat
  | width :: widths, cell :: row => max width (cellWidth cell) :: widen widths row
  | widths, _ => widths

/-- The widths of the columns. -/
def columnWidths (headers : List String) (rows : List (List String)) : List Nat :=
  rows.foldl widen (headers.map cellWidth)

/-- The cells of a line, all but the last filled up. -/
def alignedCells : List Nat → List String → List String
  | _, [] => []
  | _, [last] => [last]
  | widths, cell :: rest => padded (widths.headD 0) cell :: alignedCells widths.tail rest

def columnGap : String := "  "

/-- A line with these pieces. -/
def tableLine (pieces : List String) : String :=
  columnGap.intercalate pieces ++ "\n"

/-- A printed table. -/
def table (headers : List String) (rows : List (List String)) : String :=
  let widths := columnWidths headers rows
  String.join (tableLine (alignedCells widths headers) ::
    tableLine (widths.map (ruler '-')) ::
    rows.map fun row => tableLine (alignedCells widths row))

end ClassAtlas.Report
