import CubeQuery.Json.Decode

/-!
# Aggregate requests

Everything a caller can ask of an aggregate query, and the defaults that settings can give.
-/

namespace CubeQuery.Plan

open Json

structure RequestDefaults where
  sparse : Bool
  debug : Bool
  nonempty : Bool
  distinct : Bool
  parents : Bool
deriving DecidableEq, Repr

def RequestDefaults.none : RequestDefaults := ⟨false, false, false, false, false⟩

structure Request where
  /-- Measure names; the default measure where there are none. -/
  measures : List String
  drilldown : List String
  cut : List String
  /-- Clauses that all have to hold. -/
  filter : List String
  order : Option String
  orderDesc : Bool
  offset : Option Nat
  limit : Option Nat
  nonempty : Bool
  distinct : Bool
  properties : List String
  /-- Properties shown in place of captions. -/
  caption : List String
  parents : Bool
  debug : Bool
  sparse : Bool
deriving DecidableEq, Repr

namespace Request

def ofDefaults (d : RequestDefaults) : Request where
  measures := []
  drilldown := []
  cut := []
  filter := []
  order := none
  orderDesc := false
  offset := none
  limit := none
  nonempty := d.nonempty
  distinct := d.distinct
  properties := []
  caption := []
  parents := d.parents
  debug := d.debug
  sparse := d.sparse

def empty : Request := ofDefaults .none

/-! ## Building requests -/

def addMeasure (r : Request) (name : String) : Request := { r with measures := r.measures ++ [name] }

def addDrilldown (r : Request) (spec : String) : Request :=
  { r with drilldown := r.drilldown ++ [spec] }

def addCut (r : Request) (expression : String) : Request := { r with cut := r.cut ++ [expression] }

def addFilter (r : Request) (clause : String) : Request := { r with filter := r.filter ++ [clause] }

def orderBy (r : Request) (target : String) (descending : Bool) : Request :=
  { r with order := some target, orderDesc := descending }

def page (r : Request) (offset limit : Option Nat) : Request := { r with offset, limit }

def addProperty (r : Request) (spec : String) : Request :=
  { r with properties := r.properties ++ [spec] }

def addCaption (r : Request) (spec : String) : Request := { r with caption := r.caption ++ [spec] }

/-! ## Requests as JSON -/

/-- Every field may be left out. -/
def ofJson? : Decoder Request := fun j => do
  let r ← record? ["measures", "drilldown", "cut", "filter", "order", "order_desc", "offset",
    "limit", "nonempty", "distinct", "properties", "caption", "parents", "debug", "sparse"] j
  return {
    measures := ← r.withDefault "measures" (list? text?) []
    drilldown := ← r.withDefault "drilldown" (list? text?) []
    cut := ← r.withDefault "cut" (list? text?) []
    filter := ← r.withDefault "filter" (list? text?) []
    order := ← r.optional "order" text?
    orderDesc := ← r.withDefault "order_desc" flag? false
    offset := ← r.optional "offset" size?
    limit := ← r.optional "limit" size?
    nonempty := ← r.withDefault "nonempty" flag? false
    distinct := ← r.withDefault "distinct" flag? false
    properties := ← r.withDefault "properties" (list? text?) []
    caption := ← r.withDefault "caption" (list? text?) []
    parents := ← r.withDefault "parents" flag? false
    debug := ← r.withDefault "debug" flag? false
    sparse := ← r.withDefault "sparse" flag? false }

def texts (items : List String) : Json := .arr (items.map Json.str)

def count? : Option Nat → Json
  | some n => .ofNat n
  | none => .null

def json (r : Request) : Json := .obj [
  ("measures", texts r.measures), ("drilldown", texts r.drilldown), ("cut", texts r.cut),
  ("filter", texts r.filter), ("order", .ofText? r.order), ("order_desc", .bool r.orderDesc),
  ("offset", count? r.offset), ("limit", count? r.limit), ("nonempty", .bool r.nonempty),
  ("distinct", .bool r.distinct), ("properties", texts r.properties),
  ("caption", texts r.caption), ("parents", .bool r.parents), ("debug", .bool r.debug),
  ("sparse", .bool r.sparse)]

end Request

end CubeQuery.Plan
