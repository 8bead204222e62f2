import CubeQuery.Cube.Member

/-!
# Descriptions of members

Members as JSON, with whatever else was asked for about them.
-/

namespace CubeQuery.Describe

open Json

def kindText : DimensionKind → String
  | .standard => "standard"
  | .time => "time"
  | .measures => "measures"

structure DimensionInfo where
  name : String
  caption : String
  kind : DimensionKind
  level : String
deriving DecidableEq, Repr

def DimensionInfo.json (i : DimensionInfo) : Json := .obj [
  ("name", .str i.name), ("caption", .str i.caption), ("type", .str (kindText i.kind)),
  ("level", .str i.level)]

/-- What is known of a level; the level of measures is known in every cube. -/
def dimensionInfo? (cube : Cube) (level : LevelRef) : Option DimensionInfo :=
  if level = measuresLevel then some ⟨"Measures", "Measures", .measures, level.level⟩
  else (cube.level? level).map fun r =>
    ⟨r.dimension.name, r.dimension.caption, r.dimension.kind, r.level.caption⟩

def memberFields (m : Member) : List (String × Json) := [
  ("name", .str m.name), ("full_name", .str m.fullName), ("caption", .str m.caption),
  ("all_member", .bool m.allMember), ("drillable", .bool m.drillable), ("depth", .ofNat m.depth),
  ("key", m.key.json), ("num_children", .ofNat m.numChildren),
  ("parent_name", .ofText? m.parentName)]

def memberJson (m : Member) : Json := .obj (memberFields m)

def membersJson (ms : List Member) : Json := .arr (ms.map memberJson)

structure MemberDescription where
  member : Member
  properties : NameMap Scalar
  children : Option (List Member)
  ancestors : Option (List Member)
  dimension : Option DimensionInfo

namespace MemberDescription

def ofMember (m : Member) : MemberDescription := ⟨m, NameMap.empty, none, none, none⟩

def propertiesJson? (d : MemberDescription) : Option Json :=
  if d.properties.isEmpty then none else some (.obj (d.properties.map (·.json)).entries)

def json (d : MemberDescription) : Json := .obj (
  memberFields d.member ++ field? "properties" d.propertiesJson? ++
    field? "children" (d.children.map membersJson) ++
    field? "ancestors" (d.ancestors.map membersJson) ++
    field? "dimension" (d.dimension.map (·.json)))

end MemberDescription

end CubeQuery.Describe
