import CubeQuery.Mdx.SetExpr

/-!
# Queries

Conditions on measures, calculated members, axes and whole `SELECT` queries.
-/

namespace CubeQuery.Mdx

inductive CompareOp where
  | eq
  | ne
  | lt
  | gt
  | le
  | ge
deriving DecidableEq, Repr

namespace CompareOp

def token : CompareOp → Token
  | .eq => .eq
  | .ne => .ne
  | .lt => .lt
  | .gt => .gt
  | .le => .le
  | .ge => .ge

def ofText? : String → Option CompareOp
  | "=" => some .eq
  | "<>" => some .ne
  | "<" => some .lt
  | ">" => some .gt
  | "<=" => some .le
  | ">=" => some .ge
  | _ => none

theorem ofText?_text (op : CompareOp) : ofText? op.token.text = some op := by
  cases op <;> rfl

end CompareOp

/-- A value compared with a number, which is kept as it was written. -/
structure Comparison where
  value : ValueExpr
  op : CompareOp
  number : String
deriving DecidableEq, Repr

def Comparison.tokens (c : Comparison) : List Token :=
  c.value.tokens ++ [.space, c.op.token, .space, .number c.number]

/-- Comparisons that all have to hold. -/
structure Condition where
  comparisons : List Comparison
deriving DecidableEq, Repr

namespace Condition

def isEmpty (c : Condition) : Bool := c.comparisons.isEmpty

def tokens (c : Condition) : List Token :=
  [Token.space, .and, .space].intercalate (c.comparisons.map (·.tokens))

def text (c : Condition) : String := serialize c.tokens

end Condition

/-- A calculated measure that shows its source only where a condition holds. -/
structure FilteredMeasure where
  /-- Unique name of the calculated measure. -/
  name : String
  /-- Unique name of the measure it shows. -/
  source : String
  condition : Condition
deriving DecidableEq, Repr

namespace FilteredMeasure

def uniqueName (measure : String) : String := "[Measures]." ++ quoteName ("Filtered " ++ measure)

def ofMeasure (name fullName : String) (condition : Condition) : FilteredMeasure :=
  ⟨uniqueName name, fullName, condition⟩

def tokens (m : FilteredMeasure) : List Token :=
  [.memberWord, .space, .uniqueIdent m.name, .space, .asWord, .space] ++
    callTokens "iif" [m.condition.tokens, [.uniqueIdent m.source], [.null]]

end FilteredMeasure

structure Axis where
  set : SetExpr
  nonEmpty : Bool
deriving Repr

def Axis.tokens (a : Axis) (position : Nat) : List Token :=
  (if a.nonEmpty then [.nonEmpty, .space] else []) ++ a.set.tokens ++
    [.space, .on, .space, .axis position]

/-- A query over one cube; the slicer sets are joined into one tuple. -/
structure Query where
  cube : String
  members : List FilteredMeasure
  axes : List Axis
  slicer : List SetExpr
deriving Repr

namespace Query

def withTokens (members : List FilteredMeasure) : List Token :=
  if members.isEmpty then [] else
    [.withWord, .space] ++ members.flatMap fun m => m.tokens ++ [.newline]

def axesTokens (axes : List Axis) : List Token :=
  [Token.comma, .newline].intercalate (axes.mapIdx fun position a => a.tokens position)

def whereTokens (slicer : List SetExpr) : List Token :=
  if slicer.isEmpty then [] else
    [.newline, .whereWord, .space, .lparen] ++ (SetExpr.crossJoin slicer).tokens ++ [.rparen]

def tokens (q : Query) : List Token :=
  withTokens q.members ++ [.select, .space] ++ axesTokens q.axes ++
    [.newline, .fromWord, .space, .bracketed q.cube] ++ whereTokens q.slicer

def text (q : Query) : String := serialize q.tokens

end Query

end CubeQuery.Mdx
