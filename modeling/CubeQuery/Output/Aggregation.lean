import CubeQuery.Describe.Member
import CubeQuery.Result.CellIndex

/-!
# Aggregations

A cell result as JSON that keeps its shape: the members of the axes, the dimensions of the axes and
the nested cells.
-/

namespace CubeQuery.Output.Aggregation

open Describe Json

def axisJson (a : ResultAxis) : Json := .obj [("members", membersJson a.members)]

/-- What is known of the dimension of the axis at a position; the first one holds measures. -/
def axisDimension? (cube : Cube) (position : Nat) (a : ResultAxis) : Option DimensionInfo :=
  match a.effectiveLevel? with
  | some level => dimensionInfo? cube level
  | none => if position = 0 then dimensionInfo? cube measuresLevel else none

def axisDimensions (cube : Cube) (position : Nat) : List ResultAxis → List Json
  | [] => []
  | a :: rest =>
    ((axisDimension? cube position a).map (·.json)).getD .null ::
      axisDimensions cube (position + 1) rest

def parentsJson (a : ResultAxis) : Json :=
  .obj (a.parents.entries.filterMap fun (name, chain) =>
    chain.head?.map fun m => (name, memberJson m))

/-- The parents of all axes, if any are known. -/
def allParentsJson? (r : CellResult) : Option Json :=
  if r.axes.any fun a => !a.parents.isEmpty then some (.arr (r.axes.map parentsJson)) else none

def json (r : CellResult) (cube : Cube) : Json := .obj (
  [("axes", .arr (r.axes.map axisJson)),
    ("axis_dimensions", .arr (axisDimensions cube 0 r.axes)),
    ("values", r.nested (·.json))] ++
    field? "axis_parents" (allParentsJson? r) ++ field? "mdx" (r.mdx.map Json.str))

end CubeQuery.Output.Aggregation
