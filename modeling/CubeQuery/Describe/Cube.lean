import CubeQuery.Describe.Member
import CubeQuery.Engine.Basic

/-!
# Descriptions of cubes

Cubes, dimensions and single members as a metadata service reports them.
-/

namespace CubeQuery.Describe

open Json

def annotationsJson (a : NameMap String) : Json := .obj (a.map Json.str).entries

def measureJson (m : Measure) : Json := .obj [
  ("name", .str m.name), ("caption", .str m.caption), ("annotations", annotationsJson m.annotations),
  ("full_name", .str m.fullName)]

/-- The members listed for the levels of a dimension, by hierarchy and level name. -/
abbrev Listing := List ((String × String) × List Member)

/-- The members listed for a level; of several levels with one name the last counts. -/
def Listing.find? (l : Listing) (hierarchy level : String) : Option (List Member) :=
  (l.reverse.find? (·.1 == (hierarchy, level))).map (·.2)

def levelJson (h : Hierarchy) (listing : Listing) (l : Level) : Json := .obj (
  [("name", .str l.name), ("full_name", .str l.uniqueName), ("caption", .str l.caption)] ++
    field? "members" ((listing.find? h.name l.name).map membersJson))

def hierarchyJson (listing : Listing) (h : Hierarchy) : Json := .obj [
  ("name", .str h.name), ("has_all", .bool h.hasAll),
  ("all_member_name", .ofText? h.allMemberName),
  ("levels", .arr (h.levels.map (levelJson h listing)))]

def dimensionJson (listing : Listing) (d : Dimension) : Json := .obj [
  ("name", .str d.name), ("caption", .str d.caption), ("type", .str (kindText d.kind)),
  ("annotations", annotationsJson d.annotations),
  ("hierarchies", .arr (d.hierarchies.map (hierarchyJson listing)))]

/-- A cube with its visible measures, without members. -/
def cubeJson (c : Cube) : Json := .obj [
  ("name", .str c.name), ("annotations", annotationsJson c.annotations),
  ("dimensions", .arr ((c.dimensions.filter (·.kind != .measures)).map (dimensionJson []))),
  ("measures", .arr ((c.measures.filter (·.visible)).map measureJson))]

variable {σ : Type}

def findDimension (cube : Cube) (name : String) : Except QueryError Dimension :=
  match cube.dimension? name with
  | some d => .ok d
  | none => .error (.unknownDimension cube.name name)

def levelNames (d : Dimension) : List (String × String) :=
  d.hierarchies.flatMap fun h => h.levels.map fun l => (h.name, l.name)

def listLevels (engine : Engine σ) (cube dimension : String) :
    List (String × String) → QueryM σ Listing
  | [] => return []
  | (hierarchy, level) :: rest => do
    let members ← (engine.levelMembers cube ⟨dimension, hierarchy, level⟩).toQuery
    return ((hierarchy, level), members) :: (← listLevels engine cube dimension rest)

def dimension (engine : Engine σ) (cube : Cube) (name : String) : QueryM σ Json := do
  let d ← Action.ofExcept (findDimension cube name)
  return dimensionJson (← listLevels engine cube.name d.name (levelNames d)) d

/-- A level of the default hierarchy of a dimension. -/
def findLevel (cube : Cube) (dimension level : String) : Except QueryError LevelRef := do
  let d ← findDimension cube dimension
  match d.defaultHierarchy? with
  | none => .error (.unknownHierarchy d.name d.name)
  | some h =>
    match h.level? level with
    | none => .error (.unknownLevel d.name level)
    | some l => return ⟨d.name, h.name, l.name⟩

structure MemberOptions where
  memberProperties : List String
  /-- A property shown in place of the caption. -/
  caption : Option String
  children : Bool

def MemberOptions.none : MemberOptions := ⟨[], Option.none, false⟩

def MemberOptions.shownProperties (o : MemberOptions) (m : Member) : NameMap Scalar :=
  NameMap.ofList (o.memberProperties.filterMap fun name => (m.property? name).map (name, ·))

def MemberOptions.captionOf (o : MemberOptions) (m : Member) : String :=
  (((o.caption.bind m.property?).filter fun v => !v.isNull).map (·.display)).getD m.caption

def withOptions (engine : Engine σ) (cube : String) (options : MemberOptions) (m : Member) :
    QueryM σ MemberDescription := do
  let shown := { MemberDescription.ofMember { m with caption := options.captionOf m } with
    properties := options.shownProperties m }
  if options.children then
    return { shown with children := some (← (engine.children cube m).toQuery) }
  else return shown

def levelMembers (engine : Engine σ) (cube : Cube) (dimension level : String)
    (options : MemberOptions) : QueryM σ (List MemberDescription) := do
  let ref ← Action.ofExcept (findLevel cube dimension level)
  let members ← (engine.levelMembers cube.name ref).toQuery
  Action.all (members.map (withOptions engine cube.name options))

/-- The first member of a level with a displayed key. -/
def findByKey (engine : Engine σ) (cube : Cube) (dimension level key : String) :
    QueryM σ Member := do
  let ref ← Action.ofExcept (findLevel cube dimension level)
  let members ← (engine.levelMembers cube.name ref).toQuery
  match members.find? (·.key.display == key) with
  | some m => return m
  | none => throw (.memberNotFound key)

def memberByKey (engine : Engine σ) (cube : Cube) (dimension level key : String)
    (options : MemberOptions) : QueryM σ MemberDescription := do
  let m ← findByKey engine cube dimension level key
  let d ← withOptions engine cube.name options m
  return { d with ancestors := some (← (engine.ancestors cube.name m).toQuery) }

def memberByName (engine : Engine σ) (cube : Cube) (expression : String) :
    QueryM σ MemberDescription := do
  match ← (engine.member cube.name expression).toQuery with
  | none => throw (.memberNotFound expression)
  | some m =>
    let ancestors ← (engine.ancestors cube.name m).toQuery
    return { MemberDescription.ofMember m with
      ancestors := some ancestors
      dimension := dimensionInfo? cube m.level }

end CubeQuery.Describe
