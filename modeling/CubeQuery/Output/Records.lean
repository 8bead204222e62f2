import CubeQuery.Tidy.Table

/-!
# Records

A table as a list of JSON objects, one per row, with the titles of the columns as field names.
-/

namespace CubeQuery.Output.Records

def recordFields (header : List String) (row : List Scalar) : List (String × Json) :=
  header.zip (row.map (·.json))

def json (t : Tidy.Table) : Json :=
  .obj [("data", .arr (t.rows.map fun row => .obj (recordFields t.header row)))]

end CubeQuery.Output.Records
