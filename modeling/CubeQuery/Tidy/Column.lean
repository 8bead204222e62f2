import CubeQuery.Plan.Window
import CubeQuery.Result.Cells
import CubeQuery.Result.Odometer
import CubeQuery.Tidy.Property

/-!
# Columns of tidy tables

A cell result as one row per combination of axis members. One list of columns gives both the header
and the rows: for every drilldown axis a key and a label per shown level, then the requested
properties, then the measures.
-/

namespace CubeQuery.Tidy

structure Options where
  /-- Whether the levels above the axis level are shown. -/
  parents : Bool
  /-- Whether the query text is passed on. -/
  debug : Bool
  properties : List PropertySpec
  captions : CaptionOverrides
  /-- Whether rows without any measure value are dropped. -/
  sparse : Bool
  /-- The rows that are shown, counted before any is dropped. -/
  window : Plan.Window

/-- What a column shows of a member: its key or its label at a depth, or a property. -/
inductive Aspect where
  | key (depth : Nat) (title : String)
  | label (depth : Nat) (title : String)
  | property (spec : PropertySpec)

def Aspect.title : Aspect → String
  | .key _ title => "ID " ++ title
  | .label _ title => title
  | .property spec => spec.title

/-- A column: an aspect of the members of a drilldown axis, or a measure. -/
inductive Column where
  | member (axis : Nat) (aspect : Aspect)
  | measure (ordinal : Nat) (title : String)

def Column.title : Column → String
  | .member _ aspect => aspect.title
  | .measure _ title => title

/-! ## The column plan -/

def levelTitles (h : Hierarchy) (first last : Nat) : List (Nat × String) :=
  (List.range' first (last + 1 - first)).map fun depth =>
    (depth, ((h.levelAt? depth).map (·.caption)).getD "")

/-- The shown depths of the axis at a position, each with its title. -/
def shownDepths (cube : Cube) (parents : Bool) (position : Nat) (axis : ResultAxis) :
    List (Nat × String) :=
  match axis.effectiveLevel?.bind cube.level? with
  | some r =>
    let first := if parents then min r.hierarchy.firstRealDepth r.level.depth else r.level.depth
    levelTitles r.hierarchy first r.level.depth
  | none =>
    [((axis.members.head?.map (·.depth)).getD 0, "Axis " ++ Decimal.natText (position + 1))]

def axisColumns (cube : Cube) (parents : Bool) (position : Nat) (axis : ResultAxis) :
    List Column :=
  (shownDepths cube parents position axis).flatMap fun (depth, title) =>
    [.member position (.key depth title), .member position (.label depth title)]

/-- The column of a property, on the first axis of its hierarchy. -/
def propertyColumn (axes : List ResultAxis) (spec : PropertySpec) : Except QueryError Column :=
  match axes.findIdx? fun a => a.effectiveLevel?.any (·.sameHierarchy spec.level) with
  | some position => .ok (.member position (.property spec))
  | none => .error (.propertyNotInDrilldown spec.level.dimension)

def measureColumns (ordinal : Nat) : List Member → List Column
  | [] => []
  | m :: rest => .measure ordinal m.caption :: measureColumns (ordinal + 1) rest

def allAxisColumns (cube : Cube) (parents : Bool) (position : Nat) : List ResultAxis → List Column
  | [] => []
  | a :: rest =>
    axisColumns cube parents position a ++ allAxisColumns cube parents (position + 1) rest

def columns (r : CellResult) (cube : Cube) (options : Options) :
    Except QueryError (List Column) := do
  let properties ← options.properties.mapM (propertyColumn r.drilldownAxes)
  return allAxisColumns cube options.parents 0 r.drilldownAxes ++ properties ++
    measureColumns 0 r.measures

/-! ## Rows -/

/-- The member at a depth: the member itself, or its ancestor there. -/
def memberAtDepth? (m : Member) (ancestors : List Member) (depth : Nat) : Option Member :=
  if m.depth = depth then some m else ancestors.find? (·.depth == depth)

def rowMember? (r : CellResult) (ordinals : List Nat) (position : Nat) :
    Option (ResultAxis × Member) := do
  let axis ← r.drilldownAxes[position]?
  let ordinal ← ordinals[position]?
  return (axis, ← axis.members[ordinal]?)

def measureCell (r : CellResult) (ordinals : List Nat) (measure : Nat) : Scalar :=
  r.cell (measure :: ordinals)

def Aspect.of (captions : CaptionOverrides) (m : Member) (ancestors : List Member) :
    Aspect → Scalar
  | .key depth _ => ((memberAtDepth? m ancestors depth).map (·.key)).getD .null
  | .label depth _ => ((memberAtDepth? m ancestors depth).map captions.label).getD .null
  | .property spec => spec.valueFor m ancestors

def Column.value (r : CellResult) (captions : CaptionOverrides) (ordinals : List Nat) :
    Column → Scalar
  | .member axis aspect =>
    ((rowMember? r ordinals axis).map fun (a, m) =>
      aspect.of captions m (a.ancestorsOf m)).getD .null
  | .measure ordinal _ => measureCell r ordinals ordinal

def rowShape (r : CellResult) : List Nat := r.drilldownAxes.map (·.members.length)

/-- Whether a row has measures and all of them are null. -/
def isVacant (r : CellResult) (ordinals : List Nat) : Bool :=
  let values := (List.range r.measures.length).map (measureCell r ordinals)
  !values.isEmpty && values.all (·.isNull)

def shownOrdinals (r : CellResult) (options : Options) : List (List Nat) :=
  (options.window.rows (readings (rowShape r))).filter fun ordinals =>
    !(options.sparse && isVacant r ordinals)

def columnRows (r : CellResult) (options : Options) (columns : List Column) :
    List (List Scalar) :=
  (shownOrdinals r options).map fun ordinals =>
    columns.map (Column.value r options.captions ordinals)

end CubeQuery.Tidy
