import CubeQuery.Cube.Basic
import CubeQuery.Error
import CubeQuery.Mdx.Query
import CubeQuery.Text.Blank

/-!
# Filter clauses

A clause compares a measure with a number. It is cut into the measure, made of word characters and
white space, the operator, and the number, which is kept as it is written.
-/

namespace CubeQuery.Plan

open Mdx Text

namespace Filter

def isMeasureChar (c : Char) : Bool := isWord c || isBlank c

/-- The longest operator at the front of a text. -/
def operator? : List Char → Option (CompareOp × List Char)
  | '>' :: '=' :: rest => some (.ge, rest)
  | '<' :: '=' :: rest => some (.le, rest)
  | '<' :: '>' :: rest => some (.ne, rest)
  | '=' :: rest => some (.eq, rest)
  | '<' :: rest => some (.lt, rest)
  | '>' :: rest => some (.gt, rest)
  | _ => none

def sign : List Char → List Char × List Char
  | '-' :: rest => (['-'], rest)
  | rest => ([], rest)

def fraction : List Char → List Char × List Char
  | '.' :: rest => ('.' :: rest.takeWhile isDecimalDigit, rest.dropWhile isDecimalDigit)
  | rest => ([], rest)

/-- The number at the front of a text: a sign, digits, a point and digits. -/
def number? (cs : List Char) : Option (List Char × List Char) :=
  let (minus, rest) := sign cs
  let digits := rest.takeWhile isDecimalDigit
  if digits.isEmpty then none
  else
    let (decimals, rest) := fraction (rest.dropWhile isDecimalDigit)
    some (minus ++ digits ++ decimals, rest)

structure Clause where
  measure : String
  op : CompareOp
  number : String
deriving DecidableEq, Repr

def Clause.ofText? (text : String) : Option Clause := do
  let cs := text.toList
  let measure := cs.takeWhile isMeasureChar
  if measure.isEmpty then none
  else
    let (op, rest) ← operator? (cs.dropWhile isMeasureChar)
    let (number, rest) ← number? (skipBlanks rest)
    if (skipBlanks rest).isEmpty then
      return ⟨String.ofList (trim measure), op, String.ofList number⟩
    else none

def comparison (cube : Cube) (text : String) : Except QueryError Comparison :=
  match Clause.ofText? text with
  | none => .error (.invalidFilter text)
  | some clause =>
    match cube.measure? clause.measure with
    | none => .error (.unknownMeasure cube.name clause.measure)
    | some m => .ok ⟨.measure m.fullName, clause.op, clause.number⟩

def condition (cube : Cube) (clauses : List String) : Except QueryError Condition :=
  (clauses.mapM (comparison cube)).map Condition.mk

end Filter

end CubeQuery.Plan
