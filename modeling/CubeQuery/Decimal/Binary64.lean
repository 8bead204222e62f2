/-!
# Binary floating point

Finite 64-bit binary floating-point numbers as sign, significand and exponent. Rounding is to the
nearest representable number, a tie going to the even significand, and all of it is exact arithmetic
on natural numbers.
-/

namespace CubeQuery.Decimal

/-- The number `significand · 2 ^ exponent`, negated if `negative` is set. -/
structure Binary64 where
  negative : Bool
  significand : Nat
  exponent : Int
deriving DecidableEq, Repr

/-- The whole number nearest to `num / den`, a tie going to the even one. -/
def roundHalfEven (num den : Nat) : Nat :=
  let low := num / den
  let twice := 2 * (num % den)
  if twice < den then low
  else if den < twice then low + 1
  else low + low % 2

namespace Binary64

def minExponent : Int := -1074

def maxExponent : Int := 971

def significandBound : Nat := Nat.pow 2 53

def zero (negative : Bool) : Binary64 := ⟨negative, 0, minExponent⟩

def isZero (x : Binary64) : Bool := x.significand == 0

/-- The numerator of the magnitude, over `den`. -/
def num (x : Binary64) : Nat := x.significand * Nat.pow 2 x.exponent.toNat

def den (x : Binary64) : Nat := Nat.pow 2 (-x.exponent).toNat

/-- `num / den` divided by `2 ^ exponent` and rounded. -/
def scaledRound (num den : Nat) (exponent : Int) : Nat :=
  roundHalfEven (num * Nat.pow 2 (-exponent).toNat) (den * Nat.pow 2 exponent.toNat)

/-- The exponent at which `num / den` has at most 53 significant bits before rounding. -/
def exponentFor (num den : Nat) : Int :=
  let guess := max ((num.log2 : Int) - den.log2 - 53) minExponent
  if significandBound * (den * Nat.pow 2 guess.toNat) ≤ num * Nat.pow 2 (-guess).toNat then guess + 1
  else guess

/-- The number nearest to `num / den`; `none` beyond the largest finite number. -/
def ofRatio (negative : Bool) (num den : Nat) : Option Binary64 :=
  if num = 0 then some (zero negative) else
  let e := exponentFor num den
  let m := scaledRound num den e
  let (m, e) := if m = significandBound then (m / 2, e + 1) else (m, e)
  if maxExponent < e then none else some ⟨negative, m, e⟩

/-- The number nearest to a natural number, zero if none is near. -/
def ofNat (n : Nat) : Binary64 := (ofRatio false n 1).getD (zero false)

def ofInt (n : Int) : Binary64 := { ofNat n.natAbs with negative := n < 0 }

def mul (x y : Binary64) : Option Binary64 :=
  ofRatio (x.negative != y.negative) (x.num * y.num) (x.den * y.den)

def div (x y : Binary64) : Option Binary64 :=
  if y.isZero then none else
  ofRatio (x.negative != y.negative) (x.num * y.den) (x.den * y.num)

def powerOfTen (n : Nat) : Option Binary64 := ofRatio false (Nat.pow 10 n) 1

def isWhole (x : Binary64) : Bool := x.num % x.den == 0

end Binary64

end CubeQuery.Decimal
