import CubeQuery.Decimal.Binary64

/-!
# Reading decimals

A decimal text with a fraction or an exponent is read in two roundings: its leading digits, as many
as 64 bits hold, become a binary number, which is then multiplied or divided by a power of ten.
-/

namespace CubeQuery.Decimal

def word64Bound : Nat := UInt64.size

/-- Digits gathered so far and the decimal exponent of the last of them. -/
structure Digits where
  value : Nat
  exponent : Int
  /-- Set once a digit no longer fit; later digits only move the exponent. -/
  full : Bool
deriving DecidableEq, Repr

def Digits.pushWhole (ds : Digits) (digit : Nat) : Digits :=
  if ds.full || word64Bound ≤ ds.value * 10 + digit then
    { ds with exponent := ds.exponent + 1, full := true }
  else { ds with value := ds.value * 10 + digit }

/-- Passes the point, behind which a shorter digit may fit again. -/
def Digits.pastPoint (ds : Digits) : Digits := { ds with full := false }

/-- Takes one more digit after the point; a digit that does not fit ends the gathering. -/
def Digits.pushFraction (ds : Digits) (digit : Nat) : Digits :=
  if ds.full || word64Bound ≤ ds.value * 10 + digit then { ds with full := true }
  else { ds with value := ds.value * 10 + digit, exponent := ds.exponent - 1 }

def stepExponent : Nat := 308

def divideByTen : Nat → Binary64 → Nat → Option Binary64
  | 0, x, _ => some x
  | fuel + 1, x, places =>
    if places ≤ stepExponent then (Binary64.powerOfTen places).bind x.div
    else if x.isZero then some x
    else do
      let step ← Binary64.powerOfTen stepExponent
      divideByTen fuel (← x.div step) (places - stepExponent)

/-- The largest exponent that is told apart from a larger one. -/
def exponentBound : Int := Int32.maxValue.toInt

/-- `value · 10 ^ exponent` in two roundings; `none` beyond the largest finite number. -/
def scaleByTen (value : Nat) (exponent : Int) : Option Binary64 :=
  let x := Binary64.ofNat value
  if 0 ≤ exponent then
    if exponent ≤ stepExponent then (Binary64.powerOfTen exponent.toNat).bind x.mul
    else if x.isZero then some x else none
  else
    let places := (-exponent).toNat
    divideByTen 4 x (min places (4 * stepExponent))

def digitCount (n : Nat) : Nat := (Nat.toDigits 10 n).length

/-- Whether `value · 10 ^ exponent`, rounded once, is at most the largest finite number. That number
has 309 digits, so other counts of digits before the point decide alone. -/
def isFinite (value : Nat) (exponent : Int) : Bool :=
  let leading := digitCount value + exponent
  if value = 0 ∨ leading < 309 then true
  else if 310 < leading then false
  else
    (Binary64.ofRatio false (value * Nat.pow 10 exponent.toNat)
      (Nat.pow 10 (-exponent).toNat)).isSome

def Binary64.withSign (negative : Bool) (x : Binary64) : Binary64 := { x with negative }

end CubeQuery.Decimal
