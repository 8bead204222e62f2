import CubeQuery.Cube.Member
import CubeQuery.Cube.PropertyPath
import CubeQuery.Error
import CubeQuery.Mdx.Identifier

/-!
# Requested properties

Member properties shown as columns of their own, or in place of captions. A property can be requested
only of a hierarchy that is drilled.
-/

namespace CubeQuery.Tidy

open Mdx

structure PropertySpec where
  level : LevelRef
  property : String
deriving DecidableEq, Repr

namespace PropertySpec

def title (s : PropertySpec) : String := s.property

/-- The value for a member: its own, or that of the ancestor on the level of the property. -/
def valueFor (s : PropertySpec) (m : Member) (ancestors : List Member) : Scalar :=
  (((m :: ancestors).find? (·.level == s.level)).bind (·.property? s.property)).getD .null

def badShape : String :=
  "expected Dimension.Level.Property or Dimension.Hierarchy.Level.Property"

def ofNames (cube : Cube) (names : List String) : Except String PropertySpec :=
  match PropertyPath.ofNames? names with
  | none => .error badShape
  | some path => do
    let r ← path.resolve cube
    if r.level.properties.contains path.property then .ok ⟨r.ref, path.property⟩
    else .error s!"property `{path.property}` is not declared on level {r.level.name}"

def parse (cube : Cube) (drilled : List LevelRef) (text : String) :
    Except QueryError PropertySpec :=
  match Identifier.parse (Text.trimmed text) with
  | .error e => .error (.invalidProperty text e.message)
  | .ok id =>
    match ofNames cube id.names with
    | .error reason => .error (.invalidProperty text reason)
    | .ok spec =>
      if drilled.any (·.sameHierarchy spec.level) then .ok spec
      else .error (.propertyNotInDrilldown spec.level.dimension)

def parseAll (cube : Cube) (drilled : List LevelRef) (texts : List String) :
    Except QueryError (List PropertySpec) :=
  texts.mapM (parse cube drilled)

end PropertySpec

/-- Properties shown in place of captions; of several for one level the last requested counts. -/
structure CaptionOverrides where
  specs : List PropertySpec
deriving DecidableEq, Repr

namespace CaptionOverrides

def isEmpty (c : CaptionOverrides) : Bool := c.specs.isEmpty

def property? (c : CaptionOverrides) (level : LevelRef) : Option String :=
  (c.specs.reverse.find? (·.level == level)).map (·.property)

/-- The value of the property shown for a member, unless that is null. -/
def override? (c : CaptionOverrides) (m : Member) : Option Scalar :=
  ((c.property? m.level).bind m.property?).filter fun v => !v.isNull

def label (c : CaptionOverrides) (m : Member) : Scalar :=
  .text (((c.override? m).map (·.display)).getD m.caption)

def parse (cube : Cube) (drilled : List LevelRef) (texts : List String) :
    Except QueryError CaptionOverrides :=
  (PropertySpec.parseAll cube drilled texts).map CaptionOverrides.mk

end CaptionOverrides

end CubeQuery.Tidy
