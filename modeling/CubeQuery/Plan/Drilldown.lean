import CubeQuery.Cube.Basic
import CubeQuery.Error
import CubeQuery.Mdx.Identifier

/-!
# Drilldowns

A drilldown names the level that an axis breaks out on, or a named set that gives the members of the
axis.
-/

namespace CubeQuery.Plan

open Mdx

inductive DrilldownTarget where
  | level (ref : LevelRef) (uniqueName : String) (depth : Nat)
  | namedSet (set : NamedSet)
deriving DecidableEq, Repr

structure Drilldown where
  expression : String
  target : DrilldownTarget
deriving DecidableEq, Repr

/-- The level the axis lands on: the drilled level, or the anchor of the set. -/
def Drilldown.level? (d : Drilldown) : Option LevelRef :=
  match d.target with
  | .level ref _ _ => some ref
  | .namedSet set => set.anchor

/-- The names of a drilldown: a dimension, perhaps a hierarchy, perhaps a level. -/
structure LevelPath where
  dimension : String
  hierarchy : Option String
  level : Option String
deriving DecidableEq, Repr

def LevelPath.ofNames? : List String → Option LevelPath
  | [d] => some ⟨d, none, none⟩
  | [d, l] => some ⟨d, none, some l⟩
  | [d, h, l] => some ⟨d, some h, some l⟩
  | _ => none

namespace Drilldown

def path (expression : String) : Except QueryError LevelPath :=
  match Identifier.parse expression with
  | .error e => .error (.invalidDrilldown expression e.message)
  | .ok id =>
    if id.hasKey then
      .error (.invalidDrilldown expression "drilldown must name a level, not a member key")
    else
      match LevelPath.ofNames? id.names with
      | some p => .ok p
      | none =>
        .error (.invalidDrilldown expression
          s!"expected at most 3 segments, got {Decimal.natText id.names.length}")

def pathHierarchy (expression : String) (d : Dimension) (p : LevelPath) :
    Except QueryError Hierarchy :=
  match d.hierarchyOrDefault? p.hierarchy with
  | some h => .ok h
  | none =>
    .error (.invalidDrilldown expression (match p.hierarchy with
      | some name => s!"hierarchy `{name}` does not exist in dimension {d.name}"
      | none => s!"dimension {d.name} has no hierarchies"))

def pathLevel (expression : String) (h : Hierarchy) (p : LevelPath) : Except QueryError Level :=
  match p.level with
  | some name =>
    match h.level? name with
    | some l => .ok l
    | none => .error (.invalidDrilldown expression s!"level `{name}` does not exist in {h.uniqueName}")
  | none =>
    match h.defaultLevel? with
    | some l => .ok l
    | none => .error (.invalidDrilldown expression s!"hierarchy {h.name} has no levels")

def resolveLevel (cube : Cube) (expression : String) : Except QueryError ResolvedLevel := do
  let p ← path expression
  match cube.dimension? p.dimension with
  | none => .error (.unknownDimension cube.name p.dimension)
  | some d =>
    let h ← pathHierarchy expression d p
    let l ← pathLevel expression h p
    return ⟨d, h, l⟩

/-- The drilldown that an expression names; a named set of that very name comes first. -/
def resolve (cube : Cube) (expression : String) : Except QueryError Drilldown :=
  let expression := Text.trimmed expression
  match cube.namedSet? expression with
  | some set => .ok ⟨expression, .namedSet set⟩
  | none => do
    let r ← resolveLevel cube expression
    return ⟨expression, .level r.ref r.level.uniqueName r.level.depth⟩

end Drilldown

end CubeQuery.Plan
