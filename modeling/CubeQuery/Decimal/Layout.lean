import CubeQuery.Decimal.Shortest

/-!
# Layouts of decimals

The two texts of a number: a plain one for people and delimited text, which never shows an exponent,
and a compact one for JSON, which does outside a window of magnitudes.
-/

namespace CubeQuery.Decimal

def natText (n : Nat) : String := String.ofList (Nat.toDigits 10 n)

def intText (n : Int) : String := if n < 0 then "-" ++ natText n.natAbs else natText n.natAbs

def zeros (n : Nat) : String := String.ofList (List.replicate n '0')

/-- Digits with the point after the first `point` places; zeros fill a gap on the left. -/
def placePoint (digits : String) (point : Int) : String :=
  if point ≤ 0 then "0." ++ zeros (-point).toNat ++ digits
  else if point < digits.length then
    let cs := digits.toList
    String.ofList (cs.take point.toNat) ++ "." ++ String.ofList (cs.drop point.toNat)
  else digits ++ zeros (point.toNat - digits.length)

def signText (negative : Bool) : String := if negative then "-" else ""

/-- The plain text: a whole number is written out exactly and ends in `.0`. -/
def Binary64.plain (x : Binary64) : String :=
  signText x.negative ++
    if x.isWhole then natText (x.num / x.den) ++ ".0"
    else
      let s := x.shortest .up
      let digits := natText s.digits
      placePoint digits (digits.length + s.exponent)

/-- Exponents written out in full by the compact text. -/
def writesInFull (leading : Int) : Bool := -5 ≤ leading && leading ≤ 15

/-- The exponent of the compact text: only a positive one has its sign repeated. -/
def exponentText (n : Int) : String := if 0 ≤ n then "e+" ++ natText n.toNat else "e" ++ intText n

/-- The compact text: the shortest digits, with an exponent for very large and very small numbers. -/
def Binary64.compact (x : Binary64) : String :=
  signText x.negative ++
    if x.isZero then "0.0" else
    let s := x.shortest .toEven
    let digits := natText s.digits
    let point : Int := digits.length + s.exponent
    if writesInFull (point - 1) then
      let text := placePoint digits point
      if (digits.length : Int) ≤ point then text ++ ".0" else text
    else
      let mantissa := if digits.length = 1 then digits else placePoint digits 1
      mantissa ++ exponentText (point - 1)

end CubeQuery.Decimal
