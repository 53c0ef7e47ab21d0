/-
Tables of left-aligned columns.

  A column is as wide as its widest cell, counted in characters.  A row has as many
  cells as there are headers: missing cells are empty, and surplus ones are dropped.
-/

namespace GitTransport.Terminal

/-- A table with its rows, each with one cell for every header. -/
structure Table where
  headers : List String
  rows : List (List String)
  deriving DecidableEq, Repr

namespace Table

/-- A table without rows. -/
def ofHeaders (headers : List String) : Table := ⟨headers, []⟩

/-- Cells cut or filled up to a number of columns. -/
def fit (columns : Nat) (cells : List String) : List String :=
  cells.take columns ++ List.replicate (columns - cells.length) ""

/-- Add a row. -/
def addRow (table : Table) (cells : List String) : Table :=
  { table with rows := table.rows ++ [fit table.headers.length cells] }

/-- The larger one of the width of a column and the length of a cell. -/
def widen (width : Nat) (cell : String) : Nat := max width cell.length

/-- The widths of the columns. -/
def widths (table : Table) : List Nat :=
  table.rows.foldl (fun widths row => List.zipWith widen widths row)
    (table.headers.map String.length)

/-- A cell with blanks behind it up to a width. -/
def pad (cell : String) (width : Nat) : String :=
  String.ofList (cell.toList ++ List.replicate (width - cell.length) ' ')

/-- A line of cells. -/
def line (widths : List Nat) (separator : String) (cells : List String) : String :=
  String.intercalate separator (List.zipWith pad cells widths)

/-- The line below the headers.  A separator counts with its bytes here. -/
def rule (widths : List Nat) (separator : String) : String :=
  let separators := separator.utf8ByteSize * (widths.length - 1)
  String.ofList (List.replicate (widths.foldl (· + ·) 0 + separators) '-')

/-- The lines of a table: the headers, a rule and the rows. -/
def lines (table : Table) (separator : String) : List String :=
  let widths := table.widths
  line widths separator table.headers :: rule widths separator ::
    table.rows.map (line widths separator)

end Table

end GitTransport.Terminal
