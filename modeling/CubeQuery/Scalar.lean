import CubeQuery.Json.Decode

/-!
# Scalars

The values of cells, member keys and member properties.
-/

namespace CubeQuery

open Decimal

inductive Scalar where
  | null
  | bool (value : Bool)
  | int (value : Int)
  | float (value : Binary64)
  | text (value : String)
deriving DecidableEq, Repr, Inhabited

namespace Scalar

def isNull (s : Scalar) : Bool := s == .null

/-- The text shown in delimited output and compared with keys; null shows nothing. -/
def display : Scalar → String
  | .null => ""
  | .bool b => if b then "true" else "false"
  | .int n => intText n
  | .float x => x.plain
  | .text s => s

def json : Scalar → Json
  | .null => .null
  | .bool b => .bool b
  | .int n => .int n
  | .float x => .float x
  | .text s => .str s

def number? : Scalar → Option Binary64
  | .int n => some (Binary64.ofInt n)
  | .float x => some x
  | _ => none

def text? : Scalar → Option String
  | .text s => some s
  | _ => none

/-- Integers of 64 bits stay integers; larger ones become binary numbers. -/
def ofInt (n : Int) : Scalar :=
  if Int64.minValue.toInt ≤ n ∧ n ≤ Int64.maxValue.toInt then .int n else .float (Binary64.ofInt n)

def ofJson? : Json.Decoder Scalar
  | .null => some .null
  | .bool b => some (.bool b)
  | .int n => some (ofInt n)
  | .float x => some (.float x)
  | .str s => some (.text s)
  | _ => none

theorem ofJson?_json {s : Scalar}
    (h : ∀ n, s = .int n → Int64.minValue.toInt ≤ n ∧ n ≤ Int64.maxValue.toInt) :
    ofJson? s.json = some s := by
  cases s with
  | int n => exact congrArg some (if_pos (h n rfl))
  | _ => rfl

end Scalar

end CubeQuery
