import CubeQuery.Decimal.Binary64

/-!
# Shortest decimal digits

The fewest decimal digits that read back as a given binary number. For one digit, two digits and so
on the two neighbours of the number on that decimal grid are tried against the interval of reals that
round to it.
-/

namespace CubeQuery.Decimal

/-- What becomes of a number halfway between two shortest candidates. -/
inductive TieRule
  | toEven
  | up
deriving DecidableEq, Repr

structure Scientific where
  digits : Nat
  exponent : Int
deriving DecidableEq, Repr

/-- The reals that round to a number, in units of `unit = 2 ^ (exponent - 2)`. -/
structure Interval where
  low : Nat
  mid : Nat
  high : Nat
  closed : Bool
  exponent : Int
deriving DecidableEq, Repr

/-- The interval of a non-zero number; below a power of two its lower half is narrower. -/
def Binary64.interval (x : Binary64) : Interval :=
  let narrow := x.significand == Binary64.significandBound / 2 && x.exponent != Binary64.minExponent
  { low := 4 * x.significand - (if narrow then 1 else 2)
    mid := 4 * x.significand
    high := 4 * x.significand + 2
    closed := x.significand % 2 == 0
    exponent := x.exponent - 2 }

/-- `units · 2 ^ exponent / 10 ^ place` as numerator and denominator. -/
def gridRatio (units : Nat) (exponent place : Int) : Nat × Nat :=
  (units * Nat.pow 2 exponent.toNat * Nat.pow 10 (-place).toNat,
    Nat.pow 2 (-exponent).toNat * Nat.pow 10 place.toNat)

def Interval.admits (i : Interval) (digits : Nat) (place : Int) : Bool :=
  let (low, den) := gridRatio i.low i.exponent place
  let (high, _) := gridRatio i.high i.exponent place
  let point := digits * den
  if i.closed then low ≤ point && point ≤ high else low < point && point < high

/-- The admitted neighbour on the grid of `place`, the nearer one if both are. -/
def Interval.onGrid (i : Interval) (tie : TieRule) (place : Int) : Option Nat :=
  let (num, den) := gridRatio i.mid i.exponent place
  let below := num / den
  match i.admits below place && below != 0, i.admits (below + 1) place with
  | true, true =>
    let twice := 2 * (num % den)
    if twice < den then some below
    else if den < twice then some (below + 1)
    else match tie with
      | .toEven => some (below + below % 2)
      | .up => some (below + 1)
  | true, false => some below
  | false, true => some (below + 1)
  | false, false => none

/-- Raises `guess` until `num / den` is below the next power of ten. -/
def raiseExponent (num den : Nat) : Nat → Int → Int
  | 0, guess => guess
  | fuel + 1, guess =>
    if den * Nat.pow 10 (guess + 1).toNat ≤ num * Nat.pow 10 (-(guess + 1)).toNat then
      raiseExponent num den fuel (guess + 1)
    else guess

def leadingPlace (num den : Nat) : Int :=
  let bits := (num.log2 : Int) - den.log2
  raiseExponent num den 4 ((bits - 1) * 30103 / 100000 - 1)

def Scientific.strip : Nat → Scientific → Scientific
  | 0, s => s
  | fuel + 1, s =>
    if s.digits % 10 == 0 && s.digits != 0 then strip fuel ⟨s.digits / 10, s.exponent + 1⟩ else s

def Interval.search (i : Interval) (tie : TieRule) : Nat → Int → Option Scientific
  | 0, _ => none
  | fuel + 1, place =>
    match i.onGrid tie place with
    | some digits => some ⟨digits, place⟩
    | none => search i tie fuel (place - 1)

def Binary64.shortest (tie : TieRule) (x : Binary64) : Scientific :=
  if x.isZero then ⟨0, 0⟩
  else ((x.interval.search tie 17 (leadingPlace x.num x.den)).getD ⟨x.num / x.den, 0⟩).strip 20

end CubeQuery.Decimal
