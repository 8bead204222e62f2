import CubeQuery.Cube.Basic
import CubeQuery.Mdx.Identifier

/-!
# Completed metadata

Metadata may leave out captions and unique names. Completing a cube fills them in from the plain
names and sets every level's depth to its place in its hierarchy.
-/

namespace CubeQuery

open Mdx

def orElseText (s other : String) : String := if s.isEmpty then other else s

def Measure.completed (m : Measure) : Measure :=
  { m with
    caption := orElseText m.caption m.name
    fullName := orElseText m.fullName ("[Measures]." ++ quoteName m.name) }

def Level.completed (hierarchyName : String) (depth : Nat) (l : Level) : Level :=
  { l with
    depth := depth
    caption := orElseText l.caption l.name
    uniqueName := orElseText l.uniqueName (hierarchyName ++ "." ++ quoteName l.name) }

def completeLevels (hierarchyName : String) : Nat → List Level → List Level
  | _, [] => []
  | depth, l :: rest =>
    l.completed hierarchyName depth :: completeLevels hierarchyName (depth + 1) rest

/-- The unique name of a hierarchy, which drops its own name if the dimension has the same. -/
def generatedHierarchyName (dimension hierarchy : String) : String :=
  if hierarchy = dimension then quoteName dimension
  else quoteName dimension ++ "." ++ quoteName hierarchy

def Hierarchy.completed (dimension : String) (h : Hierarchy) : Hierarchy :=
  let uniqueName := orElseText h.uniqueName (generatedHierarchyName dimension h.name)
  { h with uniqueName, levels := completeLevels uniqueName 0 h.levels }

def Dimension.completed (d : Dimension) : Dimension :=
  { d with
    caption := orElseText d.caption d.name
    hierarchies := d.hierarchies.map (·.completed d.name) }

/-- The cube with every caption, unique name and depth filled in. -/
def Cube.completed (c : Cube) : Cube :=
  { c with
    measures := c.measures.map (·.completed)
    dimensions := c.dimensions.map (·.completed) }

end CubeQuery
