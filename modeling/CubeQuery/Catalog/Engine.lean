import CubeQuery.Catalog.Resolve
import CubeQuery.Engine.Basic
import CubeQuery.Json.Reader

/-!
# Catalogs as engines

An engine over a loaded catalog. It navigates the member tables and answers exactly the queries whose
text was recorded.
-/

namespace CubeQuery

open Catalog

structure RecordedAnswer where
  cube : String
  mdx : String
  result : CellResult

structure Catalog where
  tables : List CubeTable
  answers : List RecordedAnswer

namespace Catalog

/-- Undoes the doubling of closing brackets, two at a time from the left. -/
def halveClosing : List Char → List Char
  | ']' :: ']' :: rest => ']' :: halveClosing rest
  | c :: rest => c :: halveClosing rest
  | [] => []

def measureName? (uniqueName : String) : Option String :=
  let opening := "[Measures].[".toList
  let cs := uniqueName.toList
  if opening.isPrefixOf cs then
    let rest := cs.drop opening.length
    if rest.getLast? = some ']' then some (String.ofList (halveClosing rest.dropLast)) else none
  else none

/-- A member of a result axis: a measure, a member, or a measure that the query itself defines. -/
def CubeTable.axisMember? (t : CubeTable) (uniqueName : String) : Option Member :=
  match t.cube.measures.find? (·.fullName == uniqueName) with
  | some m => some (Member.ofMeasure m.name m.fullName m.caption)
  | none =>
    match t.forest.named? uniqueName with
    | some m => some m
    | none => (measureName? uniqueName).map fun name => Member.ofMeasure name uniqueName name

def CubeSource.table (s : CubeSource) : Except CatalogError CubeTable := do
  let cube := s.cube.completed
  return ⟨cube, ← Forest.ofTrees cube s.trees⟩

def CubeTable.axis (t : CubeTable) (names : List String) : Except CatalogError ResultAxis := do
  let members ← names.mapM fun name =>
    match t.axisMember? name with
    | some m => Except.ok m
    | none => .error (.unknownMember name)
  return ResultAxis.ofMembers members

/-- The first of several cubes with one name. -/
def findTable? (tables : List CubeTable) (cube : String) : Option CubeTable :=
  tables.find? (·.cube.name == cube)

def RecordedResult.answer (tables : List CubeTable) (r : RecordedResult) :
    Except CatalogError RecordedAnswer :=
  match findTable? tables r.cube with
  | none => .error (.unknownCube r.cube)
  | some t => do
    let axes ← r.axes.mapM t.axis
    return ⟨r.cube, Text.trimmed r.mdx, ⟨axes, r.cells, none⟩⟩

def ofSource (s : Source) : Except CatalogError Catalog := do
  let tables ← s.cubes.mapM (·.table)
  return ⟨tables, ← s.results.mapM (·.answer tables)⟩

def ofJson (j : Json) : Except CatalogError Catalog :=
  match Source.ofJson? j with
  | some s => ofSource s
  | none => .error .undecodable

def ofText (text : String) : Except CatalogError Catalog :=
  match Json.scan text with
  | some j => ofJson j
  | none => .error .undecodable

def table? (c : Catalog) (cube : String) : Option CubeTable := findTable? c.tables cube

def cubeNames (c : Catalog) : List String := c.tables.map (·.cube.name)

def member? (c : Catalog) (cube expression : String) : Option Member :=
  (c.table? cube).bind (·.member? expression)

def ancestors? (c : Catalog) (cube : String) (m : Member) : Option (List Member) :=
  match c.table? cube with
  | some t => t.forest.ancestors? m
  | none => some []

def children (c : Catalog) (cube : String) (m : Member) : List Member :=
  ((c.table? cube).map (·.forest.children m)).getD []

def levelMembers (c : Catalog) (cube : String) (level : LevelRef) : List Member :=
  ((c.table? cube).map (·.forest.levelMembers level)).getD []

/-- The recorded result of a query; anything else is refused. -/
def execute (c : Catalog) (cube mdx : String) : Except EngineError CellResult :=
  let mdx := Text.trimmed mdx
  match c.answers.find? fun a => a.cube == cube && a.mdx == mdx with
  | some a => .ok a.result
  | none => .error (.rejected ("no recorded result for query:\n" ++ mdx))

/-- The catalog as an engine, which never changes its state. -/
def engine {σ : Type} (c : Catalog) : Engine σ where
  cubeNames := pure c.cubeNames
  cube name := pure ((c.table? name).map (·.cube))
  member cube expression := pure (c.member? cube expression)
  ancestors cube m :=
    match c.ancestors? cube m with
    | some above => pure above
    | none => throw .endless
  children cube m := pure (c.children cube m)
  levelMembers cube level := pure (c.levelMembers cube level)
  execute cube mdx := ExceptT.mk (pure (c.execute cube mdx))
  flush := pure ()

end Catalog

end CubeQuery
