import CubeQuery.Tidy.Lane

/-!
# Tidy tables

The table of a cell result: a header and rows that share one list of columns.
-/

namespace CubeQuery.Tidy

structure Table where
  header : List String
  rows : List (List Scalar)
  mdx : Option String

def Table.ofResult (r : CellResult) (cube : Cube) (options : Options) :
    Except QueryError Table := do
  let columns ← columns r cube options
  return {
    header := columns.map (·.title)
    rows := Tidy.rows r options columns
    mdx := if options.debug then r.mdx else none }

/-- The position of the first column with a title. -/
def Table.column? (t : Table) (title : String) : Option Nat := t.header.findIdx? (· == title)

end CubeQuery.Tidy
