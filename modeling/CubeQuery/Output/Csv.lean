import CubeQuery.Tidy.Table

/-!
# Delimited text

A table as records of comma-separated fields, one line each, the header first. A field is quoted only
where it has to be. All records have as many fields as the first one.
-/

namespace CubeQuery.Output.Csv

def needsQuotes (c : Char) : Bool := c == ',' || c == '"' || c == '\r' || c == '\n'

def doubleQuotes : List Char → List Char
  | [] => []
  | c :: cs => if c = '"' then '"' :: '"' :: doubleQuotes cs else c :: doubleQuotes cs

def quotedField (field : List Char) : List Char := '"' :: (doubleQuotes field ++ ['"'])

def fieldChars (field : List Char) : List Char :=
  if field.any needsQuotes then quotedField field else field

def joinFields : List (List Char) → List Char
  | [] => []
  | [f] => fieldChars f
  | f :: rest => fieldChars f ++ ',' :: joinFields rest

/-- A line; where it would be blank it holds an empty quoted field. -/
def recordChars (fields : List (List Char)) : List Char :=
  let line := joinFields fields
  (if line.isEmpty then ['"', '"'] else line) ++ ['\n']

def text (t : Tidy.Table) : String :=
  String.ofList ((t.header.map (·.toList) :: t.rows.map (·.map (·.display.toList))).flatMap
    recordChars)

/-- A record that has not as many fields as the ones before it. -/
structure Uneven where
  expected : Nat
  found : Nat
deriving DecidableEq, Repr

def Uneven.message (e : Uneven) : String :=
  s!"CSV error: found record with {Decimal.natText e.found} fields, but the previous record has " ++
    s!"{Decimal.natText e.expected} fields"

/-- Writes a table, if no row is longer or shorter than the header. -/
def write (t : Tidy.Table) : Except Uneven String :=
  match t.rows.find? fun row => row.length != t.header.length with
  | some row => .error ⟨t.header.length, row.length⟩
  | none => .ok (text t)

end CubeQuery.Output.Csv
