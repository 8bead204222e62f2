import CubeQuery.Engine.Basic
import CubeQuery.Mdx.SetExpr

/-!
# Cuts

A cut restricts a query to a member, a set of members, a range of members or a named set. The members
of a cut are looked up in the engine and lie on one level.
-/

namespace CubeQuery.Plan

open Mdx

structure Located where
  identifier : Identifier
  member : Member
deriving Repr

inductive CutShape where
  | member (x : Located)
  | set (xs : List Located)
  | range (low high : Located)
  | namedSet (anchor : Option LevelRef)
deriving Repr

structure Cut where
  /-- The cut as the caller wrote it, trimmed. -/
  expression : String
  shape : CutShape
deriving Repr

namespace Cut

/-- The members that the cut mentions, in order. -/
def located (c : Cut) : List Located :=
  match c.shape with
  | .member x => [x]
  | .set xs => xs
  | .range low high => [low, high]
  | .namedSet _ => []

def members (c : Cut) : List Member := c.located.map (·.member)

/-- The level of the members, or the anchor of a named set. -/
def level? (c : Cut) : Option LevelRef :=
  match c.shape with
  | .namedSet anchor => anchor
  | _ => c.members.head?.map (·.level)

def depth? (c : Cut) : Option Nat := c.members.head?.map (·.depth)

def isNamedSet (c : Cut) : Bool :=
  match c.shape with
  | .namedSet _ => true
  | _ => false

def isRange (c : Cut) : Bool :=
  match c.shape with
  | .range .. => true
  | _ => false

/-- The canonical form of the expression; a range is always in parentheses. -/
def fragment? (c : Cut) : Option Fragment :=
  match c.shape with
  | .member x => some (.identifier x.identifier)
  | .set xs => some (.braces (xs.map fun x => .identifier x.identifier))
  | .range low high =>
    some (.parens [.range (.identifier low.identifier) (.identifier high.identifier)])
  | .namedSet _ => none

def memberFragments (c : Cut) : List Fragment :=
  match c.shape with
  | .member x => [.identifier x.identifier]
  | .set xs => xs.map fun x => .identifier x.identifier
  | _ => []

def toSet (c : Cut) : SetExpr :=
  match c.fragment? with
  | some f => .fragment f
  | none => .namedSet c.expression

end Cut

/-! ## Resolving cuts -/

/-- The identifiers of a cut before they are looked up. -/
inductive CutPattern where
  | member (x : Identifier)
  | set (xs : List Identifier)
  | range (low high : Identifier)
deriving DecidableEq, Repr

/-- A cut that cannot be looked up as a whole: the look-ups before the fault, and the fault. -/
structure CutFault where
  lookups : List Identifier
  context : String
  error : QueryError

namespace Cut

def inMember : String := "Unknown member in cut"

def inSet : String := "Unknown member in cut set"

def inRange : String := "Unknown member in cut range"

/-- The identifiers of fragments, or those before the first fragment that is none, and that one. -/
def identifiers : List Fragment → Except (List Identifier × Fragment) (List Identifier)
  | [] => .ok []
  | .identifier id :: rest =>
    match identifiers rest with
    | .ok ids => .ok (id :: ids)
    | .error (before, f) => .error (id :: before, f)
  | f :: _ => .error ([], f)

/-- A fault that no look-up comes before. -/
def fault (error : QueryError) : CutFault := ⟨[], inMember, error⟩

def badShape (expression : String) : QueryError :=
  .invalidCut expression "expected a member, a set `\x7ba, b\x7d` or a range `(a : b)`"

def pattern (expression : String) : Fragment → Except CutFault CutPattern
  | .identifier id => .ok (.member id)
  | .braces [] => .error (fault (.invalidCut expression "empty set"))
  | .braces items =>
    match identifiers items with
    | .ok ids => .ok (.set ids)
    | .error (before, f) => .error ⟨before, inSet, .unknownMember inSet f.text⟩
  | .range (.identifier low) (.identifier high) => .ok (.range low high)
  | .parens [.range (.identifier low) (.identifier high)] => .ok (.range low high)
  | _ => .error (fault (badShape expression))

/-- What is known of a cut before any member is looked up. -/
inductive Reading where
  | namedSet (anchor : Option LevelRef)
  | pattern (p : CutPattern)
  | faulty (f : CutFault)

/-- Reads a trimmed expression; a named set of that very name comes first. -/
def read (cube : Cube) (expression : String) : Reading :=
  match cube.namedSet? expression with
  | some set => .namedSet set.anchor
  | none =>
    match Fragment.parse expression with
    | .error e => .faulty (fault (.invalidCut expression e.message))
    | .ok f =>
      match pattern expression f with
      | .ok p => .pattern p
      | .error f => .faulty f

variable {σ : Type}

def locate (engine : Engine σ) (cube context : String) (shown : String) (id : Identifier) :
    QueryM σ Located := do
  match ← (engine.member cube id.text).toQuery with
  | some m => return ⟨id, m⟩
  | none => throw (.unknownMember context shown)

def locateAll (engine : Engine σ) (cube context : String) (ids : List Identifier) :
    QueryM σ (List Located) :=
  Action.all (ids.map fun id => locate engine cube context id.text id)

/-- Whether all members lie on the level of the first. -/
def onOneLevel : List Located → Bool
  | [] => false
  | x :: rest => rest.all fun y => y.member.level == x.member.level

def locatePattern (engine : Engine σ) (cube expression : String) : CutPattern → QueryM σ CutShape
  | .member id => return .member (← locate engine cube inMember expression id)
  | .set ids => do
    let xs ← locateAll engine cube inSet ids
    if onOneLevel xs then return .set xs else throw (.heterogeneousCutSet expression)
  | .range low high => do
    match ← locateAll engine cube inRange [low, high] with
    | [x, y] =>
      if onOneLevel [x, y] then return .range x y else throw (.heterogeneousCutRange expression)
    | _ => throw (badShape expression)

def finish (engine : Engine σ) (cube expression : String) : Reading → QueryM σ Cut
  | .namedSet anchor => return ⟨expression, .namedSet anchor⟩
  | .pattern p => return ⟨expression, ← locatePattern engine cube expression p⟩
  | .faulty f => do
    let _ ← locateAll engine cube f.context f.lookups
    throw f.error

def resolve (engine : Engine σ) (cube : Cube) (expression : String) : QueryM σ Cut :=
  let expression := Text.trimmed expression
  finish engine cube.name expression (read cube expression)

/-- Whether a cut fails whatever the engine says. -/
def Reading.isFaulty : Reading → Bool
  | .faulty _ => true
  | _ => false

def untilFaulty (cube : Cube) : List String → List String
  | [] => []
  | e :: rest =>
    if (read cube (Text.trimmed e)).isFaulty then [e] else e :: untilFaulty cube rest

/-- Resolves cuts together: all look-ups are made, and the first failure is the outcome. -/
def resolveAll (engine : Engine σ) (cube : Cube) (expressions : List String) :
    QueryM σ (List Cut) :=
  Action.all ((untilFaulty cube expressions).map (resolve engine cube))

end Cut

end CubeQuery.Plan
