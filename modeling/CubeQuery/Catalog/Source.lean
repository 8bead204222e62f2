import CubeQuery.Result.Cells

/-!
# Catalog files

A catalog file lists cubes with trees of their members, and recorded results of queries.
-/

namespace CubeQuery.Catalog

open Json

inductive MemberNode where
  | node (name : String) (caption : Option String) (key : Scalar) (properties : NameMap Scalar)
      (children : List MemberNode)

namespace MemberNode

def name : MemberNode → String
  | .node name _ _ _ _ => name

def children : MemberNode → List MemberNode
  | .node _ _ _ _ children => children

mutual

def weight : MemberNode → Nat
  | .node _ _ _ _ children => weights children + 1

def weights : List MemberNode → Nat
  | [] => 0
  | n :: rest => weight n + weights rest

end

/-- A node nested at most `depth` deep. -/
def ofJson? : Nat → Decoder MemberNode
  | 0, _ => none
  | depth + 1, j => do
    let r ← record? ["name", "caption", "key", "properties", "children"] j
    return .node
      (← r.required "name" text?)
      (← r.optional "caption" text?)
      (← r.withDefault "key" Scalar.ofJson? .null)
      (← r.withDefault "properties" (nameMap? Scalar.ofJson?) NameMap.empty)
      (← r.withDefault "children" (list? (ofJson? depth)) [])

end MemberNode

/-- The members of one hierarchy, without its All member. -/
structure MemberTree where
  dimension : String
  /-- The default hierarchy of the dimension where none is named. -/
  hierarchy : Option String
  members : List MemberNode

def MemberTree.ofJson? : Decoder MemberTree := fun j => do
  let r ← record? ["dimension", "hierarchy", "members"] j
  return {
    dimension := ← r.required "dimension" text?
    hierarchy := ← r.optional "hierarchy" text?
    members := ← r.required "members" (list? (MemberNode.ofJson? maxNesting)) }
where
  /-- No text nests containers deeper than this. -/
  maxNesting : Nat := 128

structure CubeSource where
  cube : Cube
  trees : List MemberTree

/-- Whether everything in an object but its member trees is readable. -/
def CubeSource.isReadable : Json → Bool
  | .obj fields => fields.all fun (name, v) => name == "members" || v.isReadable
  | _ => false

/-- The fields of a cube and its member trees, in one object. The kind of a dimension may be a case
with no fields. -/
def CubeSource.ofJson? : Decoder CubeSource := fun j => do
  let r ← objectRecord? ("members" :: Cube.fieldNames) j
  guard (isReadable j)
  return {
    cube := ← Cube.ofRecord? DimensionKind.ofCase? r
    trees := ← r.withDefault "members" (list? MemberTree.ofJson?) [] }

/-- A recorded result, whose axes list unique names. -/
structure RecordedResult where
  cube : String
  mdx : String
  axes : List (List String)
  cells : CellData

def RecordedResult.ofJson? : Decoder RecordedResult := fun j => do
  let r ← record? ["cube", "mdx", "axes", "cells"] j
  return {
    cube := ← r.required "cube" text?
    mdx := ← r.required "mdx" text?
    axes := ← r.required "axes" (list? (list? text?))
    cells := ← r.required "cells" CellData.ofJson? }

structure Source where
  cubes : List CubeSource
  results : List RecordedResult

def Source.ofJson? : Decoder Source := fun j => do
  let r ← record? ["cubes", "results"] j
  return {
    cubes := ← r.required "cubes" (list? CubeSource.ofJson?)
    results := ← r.withDefault "results" (list? RecordedResult.ofJson?) [] }

end CubeQuery.Catalog
