import CubeQuery.NameMap

/-!
# Cubes

The metadata of a cube: dimensions with their hierarchies and levels, measures and named sets, with
look-ups by name. Of several things with one name the first is found.
-/

namespace CubeQuery

inductive DimensionKind where
  | standard
  | time
  | measures
deriving DecidableEq, Repr

structure LevelRef where
  dimension : String
  hierarchy : String
  level : String
deriving DecidableEq, Repr

def LevelRef.sameHierarchy (a b : LevelRef) : Bool :=
  a.dimension == b.dimension && a.hierarchy == b.hierarchy

theorem LevelRef.sameHierarchy_comm (a b : LevelRef) : a.sameHierarchy b = b.sameHierarchy a := by
  simp only [sameHierarchy, Bool.beq_comm]

/-- The level that members of the measures axis belong to. -/
def measuresLevel : LevelRef := ⟨"Measures", "Measures", "MeasuresLevel"⟩

structure Level where
  name : String
  uniqueName : String
  caption : String
  /-- Zero for the root level. -/
  depth : Nat
  /-- Names of the properties its members may have. -/
  properties : List String
deriving DecidableEq, Repr

/-- Levels from the root down; the first may be a level that holds only the All member. -/
structure Hierarchy where
  name : String
  uniqueName : String
  hasAll : Bool
  allMemberName : Option String
  levels : List Level
deriving DecidableEq, Repr

structure Dimension where
  name : String
  caption : String
  kind : DimensionKind
  annotations : NameMap String
  hierarchies : List Hierarchy
deriving Repr

structure Measure where
  name : String
  caption : String
  fullName : String
  visible : Bool
  annotations : NameMap String
deriving Repr

structure NamedSet where
  name : String
  anchor : Option LevelRef
deriving DecidableEq, Repr

structure Cube where
  name : String
  annotations : NameMap String
  dimensions : List Dimension
  measures : List Measure
  namedSets : List NamedSet
deriving Repr

structure ResolvedLevel where
  dimension : Dimension
  hierarchy : Hierarchy
  level : Level
deriving Repr

def ResolvedLevel.ref (r : ResolvedLevel) : LevelRef :=
  ⟨r.dimension.name, r.hierarchy.name, r.level.name⟩

namespace Hierarchy

def level? (h : Hierarchy) (name : String) : Option Level := h.levels.find? (·.name == name)

/-- Depth of the first level below the All level. -/
def firstRealDepth (h : Hierarchy) : Nat := if h.hasAll then 1 else 0

def levelAt? (h : Hierarchy) (depth : Nat) : Option Level := h.levels[depth]?

/-- The level meant where only the hierarchy is named. -/
def defaultLevel? (h : Hierarchy) : Option Level :=
  (h.levelAt? h.firstRealDepth).or h.levels.head?

end Hierarchy

namespace Dimension

def hierarchy? (d : Dimension) (name : String) : Option Hierarchy :=
  d.hierarchies.find? (·.name == name)

/-- The hierarchy meant where only the dimension is named. -/
def defaultHierarchy? (d : Dimension) : Option Hierarchy := d.hierarchies.head?

def hierarchyOrDefault? (d : Dimension) : Option String → Option Hierarchy
  | some name => d.hierarchy? name
  | none => d.defaultHierarchy?

end Dimension

namespace Cube

/-- The first dimension of a name that is not a dimension of measures. -/
def dimension? (c : Cube) (name : String) : Option Dimension :=
  c.dimensions.find? fun d => d.kind != .measures && d.name == name

def measure? (c : Cube) (name : String) : Option Measure := c.measures.find? (·.name == name)

def defaultMeasure? (c : Cube) : Option Measure := c.measures.head?

def namedSet? (c : Cube) (name : String) : Option NamedSet := c.namedSets.find? (·.name == name)

def level? (c : Cube) (ref : LevelRef) : Option ResolvedLevel := do
  let dimension ← c.dimension? ref.dimension
  let hierarchy ← dimension.hierarchy? ref.hierarchy
  let level ← hierarchy.level? ref.level
  return ⟨dimension, hierarchy, level⟩

end Cube

end CubeQuery
