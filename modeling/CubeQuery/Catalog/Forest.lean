import CubeQuery.Catalog.Source
import CubeQuery.Cube.Naming
import CubeQuery.Error

/-!
# Member tables

The members of a cube in one table, every tree in preorder, each entry with the places of its parent
and of its children. A hierarchy with an All level has its All member above the roots of its tree.
-/

namespace CubeQuery.Catalog

open Mdx

structure Entry where
  member : Member
  parent : Option Nat
  children : List Nat

/-- Where the members of a hierarchy start. -/
structure HierarchyRoots where
  dimension : String
  hierarchy : String
  allMember : Option Nat
  /-- The members of the first real level. -/
  roots : List Nat

/-- The places of consecutive trees, the first of which starts at `index`. -/
def treePlaces (index : Nat) : List MemberNode → List Nat
  | [] => []
  | n :: rest => index :: treePlaces (index + n.weight) rest

def depthBelow (h : Hierarchy) : Option Member → Nat
  | some parent => parent.depth + 1
  | none => h.firstRealDepth

/-- The unique name of a member: the path of names below the hierarchy, without the All member. -/
def generatedFullName (h : Hierarchy) (parent : Option Member) (name : String) : String :=
  match parent with
  | some p => (if p.allMember then h.uniqueName else p.fullName) ++ "." ++ quoteName name
  | none => h.uniqueName ++ "." ++ quoteName name

def nodeMember (dimension : String) (h : Hierarchy) (parent : Option Member) (level : Level) :
    MemberNode → Member
  | .node name caption key properties children =>
    { name := name
      fullName := generatedFullName h parent name
      caption := caption.getD name
      key := if key.isNull then .text name else key
      depth := depthBelow h parent
      allMember := false
      drillable := !children.isEmpty
      numChildren := children.length
      parentName := parent.map (·.fullName)
      level := ⟨dimension, h.name, level.name⟩
      properties := properties }

mutual

/-- The entries of a tree whose root takes the place `index`. -/
def enterNode (dimension : String) (h : Hierarchy) (parent : Option (Nat × Member)) (index : Nat) :
    MemberNode → Except CatalogError (List Entry)
  | .node name caption key properties children =>
    let parentMember := parent.map (·.2)
    match h.levelAt? (depthBelow h parentMember) with
    | none => .error (.tooDeep name h.name)
    | some level => do
      let member :=
        nodeMember dimension h parentMember level (.node name caption key properties children)
      let below ← enterNodes dimension h (some (index, member)) (index + 1) children
      return ⟨member, parent.map (·.1), treePlaces (index + 1) children⟩ :: below

def enterNodes (dimension : String) (h : Hierarchy) (parent : Option (Nat × Member))
    (index : Nat) : List MemberNode → Except CatalogError (List Entry)
  | [] => .ok []
  | n :: rest => do
    let first ← enterNode dimension h parent index n
    let others ← enterNodes dimension h parent (index + n.weight) rest
    return first ++ others

end

def allName (h : Hierarchy) : String := h.allMemberName.getD ("All " ++ h.name ++ "s")

def allMemberOf (dimension : String) (h : Hierarchy) (level : Level) (roots : List MemberNode) :
    Member where
  name := allName h
  fullName := h.uniqueName ++ "." ++ quoteName (allName h)
  caption := allName h
  key := .text (allName h)
  depth := 0
  allMember := true
  drillable := !roots.isEmpty
  numChildren := roots.length
  parentName := none
  level := ⟨dimension, h.name, level.name⟩
  properties := NameMap.empty

def enterHierarchy (dimension : String) (h : Hierarchy) (index : Nat) (roots : List MemberNode) :
    Except CatalogError (List Entry × HierarchyRoots) :=
  if h.hasAll then
    match h.levels.head? with
    | none => .error (.noLevels h.name)
    | some level => do
      let all := allMemberOf dimension h level roots
      let places := treePlaces (index + 1) roots
      let below ← enterNodes dimension h (some (index, all)) (index + 1) roots
      return (⟨all, none, places⟩ :: below, ⟨dimension, h.name, some index, places⟩)
  else do
    let entries ← enterNodes dimension h none index roots
    return (entries, ⟨dimension, h.name, none, treePlaces index roots⟩)

/-- The member table of a cube, with the roots of its hierarchies. -/
structure Forest where
  entries : List Entry
  hierarchies : List HierarchyRoots

namespace Forest

def empty : Forest := ⟨[], []⟩

def addTree (cube : Cube) (f : Forest) (tree : MemberTree) : Except CatalogError Forest :=
  match cube.dimension? tree.dimension with
  | none => .error (.unknownDimension tree.dimension)
  | some dimension =>
    match dimension.hierarchyOrDefault? tree.hierarchy with
    | none => .error (.unknownHierarchy tree.dimension)
    | some h => do
      let (entries, roots) ← enterHierarchy dimension.name h f.entries.length tree.members
      return ⟨f.entries ++ entries, f.hierarchies ++ [roots]⟩

def ofTrees (cube : Cube) (trees : List MemberTree) : Except CatalogError Forest :=
  trees.foldlM (addTree cube) empty

def member? (f : Forest) (place : Nat) : Option Member := f.entries[place]?.map (·.member)

def lastPlace (fullName : String) : List Entry → Option Nat
  | [] => none
  | e :: rest =>
    match lastPlace fullName rest with
    | some place => some (place + 1)
    | none => if e.member.fullName = fullName then some 0 else none

/-- The place that a unique name stands for; of several members with it the last counts. -/
def place? (f : Forest) (fullName : String) : Option Nat := lastPlace fullName f.entries

def named? (f : Forest) (fullName : String) : Option Member := (f.place? fullName).bind f.member?

/-- The members that are reached over parent names, nearest first; none if there is still another
after the given number of them. -/
def climb? (f : Forest) : Nat → Option String → Option (List Member)
  | 0, parentName => if (parentName.bind f.named?).isNone then some [] else none
  | steps + 1, parentName =>
    match parentName.bind f.named? with
    | some m => (f.climb? steps m.parentName).map (m :: ·)
    | none => some []

/-- The ancestors of a member, nearest first; none if they never come to an end. Ancestors that do
are no more than the members of the table. -/
def ancestors? (f : Forest) (m : Member) : Option (List Member) :=
  f.climb? f.entries.length m.parentName

def children (f : Forest) (m : Member) : List Member :=
  match (f.place? m.fullName).bind (f.entries[·]?) with
  | some e => e.children.filterMap f.member?
  | none => []

/-- Keeps the first of several elements with one key. -/
def firstsBy {α : Type} (key : α → String) : List α → List α
  | [] => []
  | a :: rest => a :: (firstsBy key rest).filter fun b => key b != key a

/-- The members of a level, each displayed key once. -/
def levelMembers (f : Forest) (level : LevelRef) : List Member :=
  firstsBy (·.key.display) ((f.entries.map (·.member)).filter (·.level == level))

theorem lastPlace_spec {fullName : String} {entries : List Entry} {place : Nat}
    (h : lastPlace fullName entries = some place) :
    ∃ e, entries[place]? = some e ∧ e.member.fullName = fullName := by
  induction entries generalizing place with
  | nil => simp [lastPlace] at h
  | cons e rest ih =>
    unfold lastPlace at h
    split at h
    · rename_i p hp
      injection h with h
      subst h
      simpa using ih hp
    · split at h
      · injection h with h
        subst h
        exact ⟨e, rfl, ‹_›⟩
      · simp at h

end Forest

end CubeQuery.Catalog
