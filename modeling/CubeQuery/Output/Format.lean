import CubeQuery.Output.Aggregation
import CubeQuery.Output.Csv
import CubeQuery.Output.Records

/-!
# Output formats

The formats of results by name, and rendering a result in one of them.
-/

namespace CubeQuery.Output

inductive RenderError where
  | csv (cause : Csv.Uneven)
  | query (cause : QueryError)

def RenderError.message : RenderError → String
  | .csv cause => "CSV write failed: " ++ cause.message
  | .query cause => cause.message

inductive Format where
  | csv
  | jsonRecords
  | json
deriving DecidableEq, Repr

namespace Format

/-- The format of a name, whatever its case; no letter outside ASCII has one of the letters of these
names as its small form. -/
def ofName? (name : String) : Option Format :=
  match name.map Char.toLower with
  | "csv" => some .csv
  | "jsonrecords" => some .jsonRecords
  | "json" => some .json
  | _ => none

def name : Format → String
  | .csv => "csv"
  | .jsonRecords => "jsonrecords"
  | .json => "json"

def contentType : Format → String
  | .csv => "text/csv"
  | .jsonRecords => "application/json"
  | .json => "application/json"

theorem ofName?_name (f : Format) : ofName? f.name = some f := by
  cases f <;> decide +kernel

def render (f : Format) (r : CellResult) (cube : Cube) (options : Tidy.Options) :
    Except RenderError String :=
  match f with
  | .csv => do
    let t ← (Tidy.Table.ofResult r cube options).mapError .query
    (Csv.write t).mapError .csv
  | .jsonRecords => do
    let t ← (Tidy.Table.ofResult r cube options).mapError .query
    return (Records.json t).compact
  | .json => .ok (Aggregation.json r cube).compact

end Format

end CubeQuery.Output
