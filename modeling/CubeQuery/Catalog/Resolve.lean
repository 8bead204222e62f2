import CubeQuery.Catalog.Forest

/-!
# Member expressions in a catalog

A member is named by its unique name, by its level and its name or key, or by its path from the root
of a hierarchy. A hierarchy named after the dimension is tried before the default hierarchy.
-/

namespace CubeQuery.Catalog

open Mdx

structure CubeTable where
  cube : Cube
  forest : Forest

/-- Whether a segment names a member: a key by the displayed key, anything else by name. -/
def matchesSegment (s : Segment) (m : Member) : Bool :=
  if s.isKey then m.key.display == s.name else m.name == s.name

namespace CubeTable

def pick? (t : CubeTable) (s : Segment) (places : List Nat) : Option Nat :=
  places.find? fun place => (t.forest.member? place).any (matchesSegment s)

def childPlaces (t : CubeTable) (place : Nat) : List Nat :=
  (t.forest.entries[place]?.map (·.children)).getD []

/-- Follows a path of segments down from the given places; `current` is where it has got to. -/
def descend? (t : CubeTable) : List Segment → List Nat → Option Nat → Option Nat
  | [], _, current => current
  | s :: rest, places, _ =>
    match t.pick? s places with
    | some place => t.descend? rest (t.childPlaces place) (some place)
    | none => none

def onLevel? (t : CubeTable) (ref : LevelRef) (target : Segment) : Option Nat :=
  t.forest.entries.findIdx? fun e => e.member.level == ref && matchesSegment target e.member

def byLevel? (t : CubeTable) (dimension : String) (h : Hierarchy) : List Segment → Option Nat
  | [head, target] =>
    (h.level? head.name).bind fun level => t.onLevel? ⟨dimension, h.name, level.name⟩ target
  | _ => none

/-- A path from the roots, which may start at the All member. -/
def byPath? (t : CubeTable) (start : HierarchyRoots) (path : List Segment) : Option Nat :=
  match path, start.allMember with
  | head :: tail, some all =>
    if (t.forest.member? all).any (matchesSegment head) then
      if tail.isEmpty then some all else t.descend? tail start.roots none
    else t.descend? path start.roots none
  | _, _ => t.descend? path start.roots none

def within? (t : CubeTable) (dimension : String) (h : Hierarchy) (path : List Segment) :
    Option Nat :=
  match t.forest.hierarchies.find? fun r => r.dimension == dimension && r.hierarchy == h.name with
  | none => none
  | some start => (t.byLevel? dimension h path).or (t.byPath? start path)

/-- The segments after one that names a hierarchy, read within that hierarchy. -/
def byHierarchy? (t : CubeTable) (d : Dimension) : List Segment → Option Nat
  | second :: tail => (d.hierarchy? second.name).bind fun h => t.within? d.name h tail
  | [] => none

def bySegments? (t : CubeTable) : List Segment → Option Nat
  | [] => none
  | first :: rest =>
    (t.cube.dimension? first.name).bind fun d =>
      (t.byHierarchy? d rest).or
        (d.defaultHierarchy?.bind fun h => t.within? d.name h rest)

def resolve? (t : CubeTable) (expression : String) : Option Nat :=
  (t.forest.place? expression).or
    ((Identifier.parse expression).toOption.bind fun i => t.bySegments? i.segments)

/-- The member that an expression names, which may have white space around it. -/
def member? (t : CubeTable) (expression : String) : Option Member :=
  (t.resolve? (Text.trimmed expression)).bind t.forest.member?

end CubeTable

end CubeQuery.Catalog
