import CubeQuery.Plan.Cut
import CubeQuery.Plan.Drilldown

/-!
# Matching cuts with axes

Every axis takes at most one cut: one on its very level, or else the first one on a higher level of
its hierarchy, which is expanded to descendants. The cuts that no axis takes form the slicer.
-/

namespace CubeQuery.Plan

open Mdx

/-- The members of a drilldown axis. -/
inductive AxisSet where
  /-- All members of a level. -/
  | plain (level : LevelRef) (uniqueName : String)
  /-- The members of a cut on the level of the axis. -/
  | cut (c : Cut)
  /-- The descendants of a cut on a higher level. -/
  | expansion (c : Cut) (level : LevelRef) (uniqueName : String)
  | namedSet (set : NamedSet)
deriving Repr

def rangeExpansion (c : Cut) : QueryError :=
  .unsupportedOperation s!"range cut `{c.expression}` cannot be expanded to descendants"

namespace AxisSet

def level? : AxisSet → Option LevelRef
  | .plain level _ => some level
  | .cut c => c.level?
  | .expansion _ level _ => some level
  | .namedSet set => set.anchor

def cut? : AxisSet → Option Cut
  | .cut c => some c
  | .expansion c _ _ => some c
  | _ => none

def descendantsOf (uniqueName : String) (f : Fragment) : SetExpr :=
  .descendants (.fragment f) uniqueName

/-- The set of a cut on the level of the axis; a single member becomes a set of one. -/
def cutSet (c : Cut) : SetExpr :=
  match c.shape with
  | .member _ => .braced c.toSet
  | _ => c.toSet

/-- The set before any wrapping. -/
def set : AxisSet → Except QueryError SetExpr
  | .plain _ uniqueName => .ok (.levelMembers uniqueName)
  | .cut c => .ok (cutSet c)
  | .expansion c _ uniqueName =>
    match c.shape with
    | .member x => .ok (descendantsOf uniqueName (.identifier x.identifier))
    | .set _ => .ok (.set (c.memberFragments.map (descendantsOf uniqueName)))
    | _ => .error (rangeExpansion c)
  | .namedSet set => .ok (.braced (.namedSet set.name))

end AxisSet

/-- The axes, and the cuts that none of them has taken. -/
structure AxisPlan where
  axes : List AxisSet
  slicer : List Cut
deriving Repr

/-- Whether a cut lies on exactly the given level. -/
def Cut.isOn (level : LevelRef) (c : Cut) : Bool := !c.isNamedSet && c.level? == some level

def Cut.isAbove (level : LevelRef) (depth : Nat) (c : Cut) : Bool :=
  !c.isNamedSet && c.level?.any (·.sameHierarchy level) && c.depth?.any (· < depth)

def Cut.isBelow (level : LevelRef) (depth : Nat) (c : Cut) : Bool :=
  !c.isNamedSet && c.level?.any (level.sameHierarchy ·) && c.depth?.any (depth < ·)

/-- Takes the first cut with a property out of a list. -/
def takeFirst (p : Cut → Bool) : List Cut → Option (Cut × List Cut)
  | [] => none
  | c :: rest =>
    if p c then some (c, rest) else (takeFirst p rest).map fun (taken, left) => (taken, c :: left)

/-- The axis of a drilldown, and the cuts it leaves. -/
def claimCut (cuts : List Cut) (target : DrilldownTarget) :
    Except QueryError (AxisSet × List Cut) :=
  match target with
  | .namedSet set => .ok (.namedSet set, cuts)
  | .level ref uniqueName depth =>
    match takeFirst (Cut.isOn ref) cuts with
    | some (c, left) => .ok (.cut c, left)
    | none =>
      match takeFirst (Cut.isAbove ref depth) cuts with
      | some (c, left) =>
        if c.isRange then .error (rangeExpansion c)
        else .ok (.expansion c ref uniqueName, left)
      | none => .ok (.plain ref uniqueName, cuts)

def claimCuts (cuts : List Cut) : List Drilldown → Except QueryError (List AxisSet × List Cut)
  | [] => .ok ([], cuts)
  | d :: rest => do
    let (axis, left) ← claimCut cuts d.target
    let (axes, left) ← claimCuts left rest
    return (axis :: axes, left)

/-- The first cut on the level of an earlier one. -/
def duplicateCut? (earlier : List Cut) : List Cut → Option Cut
  | [] => none
  | c :: rest =>
    if c.isNamedSet then duplicateCut? earlier rest
    else if earlier.any fun e => e.level? == c.level? then some c
    else duplicateCut? (earlier ++ [c]) rest

/-- The first drilldown of a level above a cut of its hierarchy. -/
def drilldownAbove? (drilldowns : List Drilldown) (c : Cut) : Option Drilldown :=
  drilldowns.find? fun d =>
    match d.target with
    | .level ref _ depth => c.isBelow ref depth
    | .namedSet _ => false

/-- The first cut below a drilled level, with that drilldown. -/
def deeperCut? (drilldowns : List Drilldown) : List Cut → Option (Cut × Drilldown)
  | [] => none
  | c :: rest =>
    match drilldownAbove? drilldowns c with
    | some d => some (c, d)
    | none => deeperCut? drilldowns rest

def matchCuts (drilldowns : List Drilldown) (cuts : List Cut) : Except QueryError AxisPlan :=
  match duplicateCut? [] cuts with
  | some c => .error (.invalidCut c.expression "another cut already restricts this level")
  | none => do
    let (axes, slicer) ← claimCuts cuts drilldowns
    match deeperCut? drilldowns slicer with
    | some (c, d) => .error (.illegalDrilldown c.expression d.expression)
    | none => return ⟨axes, slicer⟩

end CubeQuery.Plan
