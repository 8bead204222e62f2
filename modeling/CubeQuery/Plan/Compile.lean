import CubeQuery.Plan.Compiled
import CubeQuery.Plan.Request

/-!
# Compiling requests

Measures are checked first, then drilldowns, cuts, filter clauses and the order clause; only the
members of cuts are asked of the engine.
-/

namespace CubeQuery.Plan

def resolveMeasure (cube : Cube) (name : String) : Except QueryError Measure :=
  match cube.measure? (Text.trimmed name) with
  | some m => .ok m
  | none => .error (.unknownMeasure cube.name name)

/-- The requested measures, or the default one where none is named. -/
def resolveMeasures (cube : Cube) (names : List String) : Except QueryError (List Measure) :=
  if names.isEmpty then
    match cube.defaultMeasure? with
    | some m => .ok [m]
    | none => .error (.unsupportedOperation s!"cube {cube.name} has no measures")
  else names.mapM (resolveMeasure cube)

def Request.compiledOrder (r : Request) (cube : Cube) : Except QueryError (Option Order) :=
  match r.order with
  | some target => (Order.compile cube target r.orderDesc).map some
  | none => .ok none

/-- Everything after the cuts have been resolved. -/
def compileResolved (cube : Cube) (r : Request) (measures : List Measure)
    (drilldowns : List Drilldown) (cuts : List Cut) : Except QueryError CompiledQuery := do
  let filter ← Filter.condition cube r.filter
  let order ← r.compiledOrder cube
  let plan ← matchCuts drilldowns cuts
  assemble cube.name measures drilldowns plan {
    filter, order
    window := ⟨r.offset, r.limit⟩
    nonempty := r.nonempty
    distinct := r.distinct }

def compile {σ : Type} (engine : Engine σ) (cube : Cube) (r : Request) :
    QueryM σ CompiledQuery := do
  let measures ← Action.ofExcept (resolveMeasures cube r.measures)
  let drilldowns ← Action.ofExcept (r.drilldown.mapM (Drilldown.resolve cube))
  let cuts ← Cut.resolveAll engine cube r.cut
  Action.ofExcept (compileResolved cube r measures drilldowns cuts)

end CubeQuery.Plan
