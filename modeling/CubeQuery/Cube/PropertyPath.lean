import CubeQuery.Cube.Basic

/-!
# Property paths

A property is named by its dimension, perhaps its hierarchy, its level and itself.
-/

namespace CubeQuery

structure PropertyPath where
  dimension : String
  hierarchy : Option String
  level : String
  property : String
deriving DecidableEq, Repr

def PropertyPath.ofNames? : List String → Option PropertyPath
  | [d, l, p] => some ⟨d, none, l, p⟩
  | [d, h, l, p] => some ⟨d, some h, l, p⟩
  | _ => none

def PropertyPath.resolve (p : PropertyPath) (cube : Cube) : Except String ResolvedLevel :=
  match cube.dimension? p.dimension with
  | none => .error s!"dimension `{p.dimension}` does not exist"
  | some d =>
    match d.hierarchyOrDefault? p.hierarchy with
    | none => .error s!"no such hierarchy in dimension {p.dimension}"
    | some h =>
      match h.level? p.level with
      | none => .error s!"level `{p.level}` does not exist"
      | some l => .ok ⟨d, h, l⟩

end CubeQuery
