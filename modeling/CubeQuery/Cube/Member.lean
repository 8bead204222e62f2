import CubeQuery.Cube.Basic
import CubeQuery.Scalar

/-!
# Members

The members of levels, with their keys and properties.
-/

namespace CubeQuery

structure Member where
  name : String
  /-- Unique name. -/
  fullName : String
  caption : String
  key : Scalar
  depth : Nat
  allMember : Bool
  drillable : Bool
  numChildren : Nat
  /-- Unique name of the parent; none at the root of a hierarchy. -/
  parentName : Option String
  level : LevelRef
  properties : NameMap Scalar
deriving DecidableEq, Repr

namespace Member

def property? (m : Member) (name : String) : Option Scalar := m.properties.find? name

def ofMeasure (name fullName caption : String) : Member where
  name := name
  fullName := fullName
  caption := caption
  key := .text name
  depth := 0
  allMember := false
  drillable := false
  numChildren := 0
  parentName := none
  level := measuresLevel
  properties := NameMap.empty

end Member

end CubeQuery
