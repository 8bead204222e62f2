import CubeQuery.Cube.Decode

/-!
# Cell results

What an engine returns for a query: the members of each axis, the measures on the first, and the
cells. Dense cells are listed with the first axis varying fastest; keyed cells carry their
coordinates, and those left out are null.
-/

namespace CubeQuery

structure ResultAxis where
  members : List Member
  /-- The level the axis was drilled on, if the engine reports it. -/
  level : Option LevelRef
  /-- Ancestors by the unique name of the nearest one, nearest first. -/
  parents : NameMap (List Member)
deriving Repr

namespace ResultAxis

def ofMembers (members : List Member) : ResultAxis := ⟨members, none, NameMap.empty⟩

/-- The level of the axis, or else that of its first member. -/
def effectiveLevel? (a : ResultAxis) : Option LevelRef :=
  a.level.or (a.members.head?.map (·.level))

/-- The known ancestors of a member, nearest first. -/
def ancestorsOf (a : ResultAxis) (m : Member) : List Member :=
  (m.parentName.bind a.parents.find?).getD []

end ResultAxis

structure KeyedCell where
  coordinates : List Nat
  value : Scalar
deriving DecidableEq, Repr

inductive CellData where
  | dense (values : List Scalar)
  | keyed (cells : List KeyedCell)
deriving DecidableEq, Repr

structure CellResult where
  axes : List ResultAxis
  cells : CellData
  /-- The query behind the result, where it was asked for. -/
  mdx : Option String
deriving Repr

/-- The distance between neighbouring cells on each axis, the first axis varying fastest. -/
def stridesFrom (stride : Nat) : List Nat → List Nat
  | [] => []
  | size :: rest => stride :: stridesFrom (stride * size) rest

def strides (shape : List Nat) : List Nat := stridesFrom 1 shape

/-- The place of a cell in a dense list; surplus coordinates and strides are ignored. -/
def denseOffset (shape coordinates : List Nat) : Nat :=
  (List.zipWith (· * ·) coordinates (strides shape)).foldr (· + ·) 0

/-- The place at which a dense cell is looked up, which is counted in words of 64 bits. -/
def densePlace (shape coordinates : List Nat) : Nat := denseOffset shape coordinates % UInt64.size

/-- The value with the given coordinates; of several the last counts. -/
def keyedValue (cells : List KeyedCell) (coordinates : List Nat) : Scalar :=
  ((cells.reverse.find? (·.coordinates == coordinates)).map (·.value)).getD .null

namespace CellResult

def shape (r : CellResult) : List Nat := r.axes.map (·.members.length)

/-- The value of a cell; null where there is none. -/
def cell (r : CellResult) (coordinates : List Nat) : Scalar :=
  match r.cells with
  | .dense values => values.getD (densePlace r.shape coordinates) .null
  | .keyed cells => keyedValue cells coordinates

def drilldownAxes (r : CellResult) : List ResultAxis := r.axes.drop 1

def measures (r : CellResult) : List Member := (r.axes.head?.map (·.members)).getD []

end CellResult

/-- One array per axis around the leaves; sizes come last axis first, which is outermost. -/
def nest (leaf : List Nat → Json) : List Nat → List Nat → Json
  | [], suffix => leaf suffix
  | size :: inner, suffix =>
    .arr ((List.range size).map fun ordinal => nest leaf inner (ordinal :: suffix))

/-! ## Cell results from JSON -/

open Json

def KeyedCell.ofJson? : Decoder KeyedCell := fun j => do
  let r ← record? ["coordinates", "value"] j
  return {
    coordinates := ← r.required "coordinates" (list? size?)
    value := ← r.required "value" Scalar.ofJson? }

def CellData.ofJson? : Decoder CellData := fun j => do
  match ← case? j with
  | ("dense", v) => return .dense (← list? Scalar.ofJson? v)
  | ("keyed", v) => return .keyed (← list? KeyedCell.ofJson? v)
  | _ => none

def ResultAxis.ofJson? : Decoder ResultAxis := fun j => do
  let r ← record? ["members", "level", "parents"] j
  return {
    members := ← r.required "members" (list? Member.ofJson?)
    level := ← r.optional "level" LevelRef.ofJson?
    parents := ← r.withDefault "parents" (nameMap? (list? Member.ofJson?)) NameMap.empty }

def CellResult.ofJson? : Decoder CellResult := fun j => do
  let r ← record? ["axes", "cells", "mdx"] j
  return {
    axes := ← r.required "axes" (list? ResultAxis.ofJson?)
    cells := ← r.required "cells" CellData.ofJson?
    mdx := ← r.optional "mdx" text? }

end CubeQuery
