import CubeQuery.Cube.PropertyPath
import CubeQuery.Error
import CubeQuery.Mdx.SetExpr

/-!
# Order clauses

A query is ordered by a measure, or by a property or an attribute of the members of one hierarchy.
-/

namespace CubeQuery.Plan

open Mdx

structure Order where
  expression : String
  key : ValueExpr
  direction : SortDirection
  /-- A level of the hierarchy whose axis is ordered; every axis where there is none. -/
  hierarchy : Option LevelRef
deriving DecidableEq, Repr

namespace Order

def appliesTo (o : Order) (level : Option LevelRef) : Bool :=
  match o.hierarchy, level with
  | none, _ => true
  | some target, some level => target.sameHierarchy level
  | some _, none => false

def directionOf (descending : Bool) : SortDirection :=
  if descending then .descending else .ascending

/-- The key that a property of a level stands for: an attribute, or a declared property. -/
def levelKey (r : ResolvedLevel) (property : String) : Except String ValueExpr :=
  match MemberAttribute.ofName? property with
  | some which => .ok (.attribute r.hierarchy.uniqueName which)
  | none =>
    if r.level.properties.contains property then
      .ok (.property r.hierarchy.uniqueName property)
    else .error s!"property `{property}` is not declared on level {r.level.name}"

def badShape : String := "expected Measures.[name] or Dimension.[Hierarchy.]Level.Property"

def keyOf (cube : Cube) (names : List String) : Except String (ValueExpr × Option LevelRef) :=
  match names with
  | ["Measures", measure] =>
    match cube.measure? measure with
    | some m => .ok (.measure m.fullName, none)
    | none => .error s!"measure `{measure}` does not exist"
  | _ =>
    match PropertyPath.ofNames? names with
    | none => .error badShape
    | some path => do
      let r ← path.resolve cube
      let key ← levelKey r path.property
      return (key, some r.ref)

def compile (cube : Cube) (target : String) (descending : Bool) : Except QueryError Order :=
  let expression := Text.trimmed target
  match Identifier.parse expression with
  | .error e => .error (.invalidOrder target e.message)
  | .ok id =>
    match keyOf cube id.names with
    | .error reason => .error (.invalidOrder target reason)
    | .ok (key, hierarchy) => .ok ⟨expression, key, directionOf descending, hierarchy⟩

end Order

end CubeQuery.Plan
