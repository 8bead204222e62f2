import CubeQuery.Mdx.Query
import CubeQuery.Plan.Axes
import CubeQuery.Plan.Filter
import CubeQuery.Plan.Order
import CubeQuery.Plan.Window

/-!
# Compiled queries

Measures lie on the first axis; with a filter each becomes a calculated measure. The set of a
drilldown axis is ordered, then cut to the window, then made distinct. The window is part of the set
only where there is one drilldown, because only then are the members of the axis the rows.
-/

namespace CubeQuery.Plan

open Mdx

/-- The clauses that hold for the whole query. -/
structure Clauses where
  filter : Condition
  order : Option Order
  window : Window
  nonempty : Bool
  distinct : Bool
deriving Repr

structure CompiledQuery where
  cube : String
  measures : List Measure
  filter : Condition
  drilldowns : List Drilldown
  axes : List AxisSet
  /-- The sets of the axes with every wrapping. -/
  axisSets : List SetExpr
  slicer : List Cut
  nonempty : Bool
  /-- The window that is left to be applied to rows. -/
  rowWindow : Window
deriving Repr

namespace CompiledQuery

def filtered (q : CompiledQuery) (m : Measure) : FilteredMeasure :=
  FilteredMeasure.ofMeasure m.name m.fullName q.filter

def definitions (q : CompiledQuery) : List FilteredMeasure :=
  if q.filter.isEmpty then [] else q.measures.map q.filtered

/-- The unique name under which a measure is on the first axis. -/
def measureName (q : CompiledQuery) (m : Measure) : String :=
  if q.filter.isEmpty then m.fullName else (q.filtered m).name

def toQuery (q : CompiledQuery) : Query where
  cube := q.cube
  members := q.definitions
  axes :=
    ⟨.set (q.measures.map fun m => .member (q.measureName m)), q.nonempty⟩ ::
      q.axisSets.map fun set => ⟨set, q.nonempty⟩
  slicer := q.slicer.map (·.toSet)

def text (q : CompiledQuery) : String := q.toQuery.text

def axisLevels (q : CompiledQuery) : List (Option LevelRef) := q.axes.map (·.level?)

/-- The requested measure that a member of the first axis shows. -/
def requestedMeasure? (q : CompiledQuery) (uniqueName : String) : Option Measure :=
  q.measures.find? fun m =>
    m.fullName == uniqueName ||
      (!q.filter.isEmpty && FilteredMeasure.uniqueName m.name == uniqueName)

end CompiledQuery

def orderSet (order : Option Order) (axis : AxisSet) (set : SetExpr) : SetExpr :=
  match order with
  | some o => if o.appliesTo axis.level? then .order set o.key o.direction else set
  | none => set

def wrappedSet (clauses : Clauses) (single : Bool) (axis : AxisSet) :
    Except QueryError SetExpr := do
  let set ← axis.set
  let set := orderSet clauses.order axis set
  let set := if single then clauses.window.applyTo set else set
  return if clauses.distinct then .distinct set else set

/-- Whether an order clause applies to none of the axes there are. -/
def ordersNothing (o : Order) (axes : List AxisSet) : Bool :=
  !axes.isEmpty && !axes.any fun axis => o.appliesTo axis.level?

def checkOrder (order : Option Order) (axes : List AxisSet) : Except QueryError Unit :=
  match order with
  | some o =>
    if ordersNothing o axes then
      .error (.invalidOrder o.expression "its dimension is not in the drilldown list")
    else .ok ()
  | none => .ok ()

def assemble (cube : String) (measures : List Measure) (drilldowns : List Drilldown)
    (plan : AxisPlan) (clauses : Clauses) : Except QueryError CompiledQuery := do
  checkOrder clauses.order plan.axes
  let single := plan.axes.length == 1
  let axisSets ← plan.axes.mapM (wrappedSet clauses single)
  return {
    cube, measures, drilldowns, axisSets
    filter := clauses.filter
    axes := plan.axes
    slicer := plan.slicer
    nonempty := clauses.nonempty
    rowWindow := if single then .everything else clauses.window }

end CubeQuery.Plan
