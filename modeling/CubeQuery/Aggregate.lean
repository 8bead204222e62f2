import CubeQuery.Engine.Session
import CubeQuery.Plan.Compile
import CubeQuery.Tidy.Table

/-!
# Aggregate queries

The way of a request through the whole program: cube, compiled query, execution, ancestors. What
comes back can be flattened and rendered.
-/

namespace CubeQuery

open Plan

structure Aggregation where
  cube : Cube
  query : CompiledQuery
  result : CellResult
  options : Tidy.Options

namespace Aggregation

def table (a : Aggregation) : Except QueryError Tidy.Table :=
  Tidy.Table.ofResult a.result a.cube a.options

/-! ## Completing a result -/

/-- A member of the measures axis under the name of the measure that it shows. -/
def asRequested (q : CompiledQuery) (m : Member) : Member :=
  match q.requestedMeasure? m.fullName with
  | some measure =>
    if measure.fullName = m.fullName then m
    else { m with
      name := measure.name
      fullName := measure.fullName
      caption := measure.caption
      key := .text measure.name }
  | none => m

def completeMeasures (q : CompiledQuery) (a : ResultAxis) : ResultAxis :=
  { a with
    level := a.level.or (some measuresLevel)
    members := a.members.map (asRequested q) }

/-- Drilldown axes with the levels they were drilled on, where the engine has not given any. -/
def completeLevels : List ResultAxis → List (Option LevelRef) → List ResultAxis
  | a :: axes, level :: levels => { a with level := a.level.or level } :: completeLevels axes levels
  | axes, _ => axes

def completeResult (q : CompiledQuery) (r : CellResult) : CellResult :=
  match r.axes with
  | [] => r
  | measures :: drilldowns =>
    { r with axes := completeMeasures q measures :: completeLevels drilldowns q.axisLevels }

/-! ## Ancestors -/

/-- The distinct parent names of the members of the drilldown axes, in ascending order. -/
def parentNames (r : CellResult) : List String :=
  let names := r.drilldownAxes.flatMap fun a => a.members.filterMap (·.parentName)
  (NameMap.ofList (names.map (·, ()))).entries.map (·.1)

variable {σ : Type}

/-- A parent followed by its ancestors; nothing where the engine does not know it. -/
def parentChain (engine : Engine σ) (cube parent : String) : QueryM σ (List Member) := do
  match ← (engine.member cube parent).toQuery with
  | none => return []
  | some m => return m :: (← (engine.ancestors cube m).toQuery)

def withParents (chains : List (String × List Member)) (a : ResultAxis) : ResultAxis :=
  { a with
    parents := (a.members.filterMap (·.parentName)).foldl
      (fun parents name =>
        match chains.find? (·.1 == name) with
        | some (_, chain) => parents.insert name chain
        | none => parents)
      a.parents }

/-- Adds the ancestors of the members of all drilldown axes; every parent is asked for once. -/
def fetchParents (engine : Engine σ) (cube : String) (r : CellResult) : QueryM σ CellResult := do
  let names := parentNames r
  let chains ← Action.all (names.map (parentChain engine cube))
  let named := names.zip chains
  return { r with axes := r.axes.take 1 ++ r.drilldownAxes.map (withParents named) }

/-! ## The pipeline -/

def optionsOf (cube : Cube) (request : Request) (q : CompiledQuery) :
    Except QueryError Tidy.Options := do
  let drilled := q.axisLevels.filterMap id
  let properties ← Tidy.PropertySpec.parseAll cube drilled request.properties
  let captions ← Tidy.CaptionOverrides.parse cube drilled request.caption
  return {
    properties, captions
    parents := request.parents
    debug := request.debug
    sparse := request.sparse
    window := q.rowWindow }

def runQuery (engine : Engine σ) (cube : Cube) (request : Request) (q : CompiledQuery) :
    QueryM σ CellResult := do
  let raw ← (engine.execute cube.name q.text).toQuery
  let r := completeResult q raw
  let r ← if request.parents then fetchParents engine cube.name r else pure r
  return if request.debug then { r with mdx := some q.text } else r

def run (engine : Engine σ) (cube : Cube) (request : Request) : QueryM σ Aggregation := do
  let query ← compile engine cube request
  let options ← Action.ofExcept (optionsOf cube request query)
  let result ← runQuery engine cube request query
  return { cube, query, result, options }

end Aggregation

namespace Session

variable {σ : Type}

def compile (session : Session σ) (cube : String) (request : Request) :
    SessionM σ CompiledQuery := do
  let cube ← session.cube cube
  SessionM.onEngine (Plan.compile session.engine cube request)

def aggregate (session : Session σ) (cube : String) (request : Request) :
    SessionM σ Aggregation := do
  let cube ← session.cube cube
  SessionM.onEngine (Aggregation.run session.engine cube request)

end Session

end CubeQuery
