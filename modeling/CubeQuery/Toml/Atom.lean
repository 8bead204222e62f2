import CubeQuery.Decimal.Reading
import CubeQuery.Toml.Value

/-!
# TOML numbers and dates

Values written without quotes: truth values, integers, fractions, dates and times.
-/

namespace CubeQuery.Toml

def isAtomChar (c : Char) : Bool :=
  c.isAlphanum || c == '_' || c == '+' || c == '-' || c == '.' || c == ':'

/-- Whether digits of some base may have single underscores between them. -/
def isDigitRun (isDigit : Char → Bool) : List Char → Bool
  | [] => false
  | [c] => isDigit c
  | c :: '_' :: rest => isDigit c && isDigitRun isDigit rest
  | c :: rest => isDigit c && isDigitRun isDigit rest

def isHexDigit (c : Char) : Bool :=
  c.isDigit || ('a' ≤ c && c ≤ 'f') || ('A' ≤ c && c ≤ 'F')

def isOctalDigit (c : Char) : Bool := '0' ≤ c && c ≤ '7'

def isBinaryDigit (c : Char) : Bool := c == '0' || c == '1'

def digitOf (c : Char) : Nat :=
  if c.isDigit then c.toNat - 48 else if 'a' ≤ c then c.toNat - 87 else c.toNat - 55

/-- The number that digits of a base make, underscores left out. -/
def numberOf (base : Nat) (cs : List Char) : Nat :=
  (cs.filter (· != '_')).foldl (fun n c => n * base + digitOf c) 0

def isWhole (cs : List Char) : Bool :=
  isDigitRun Char.isDigit cs && (cs.length == 1 || cs.head? != some '0')

def afterSign : List Char → Bool × List Char
  | '+' :: rest => (true, rest)
  | '-' :: rest => (true, rest)
  | rest => (false, rest)

def integer? : List Char → Option Int
  | '0' :: 'x' :: rest => if isDigitRun isHexDigit rest then some (numberOf 16 rest) else none
  | '0' :: 'o' :: rest => if isDigitRun isOctalDigit rest then some (numberOf 8 rest) else none
  | '0' :: 'b' :: rest => if isDigitRun isBinaryDigit rest then some (numberOf 2 rest) else none
  | cs =>
    let whole := (afterSign cs).2
    if isWhole whole then
      some (if cs.head? = some '-' then -(numberOf 10 whole : Int) else numberOf 10 whole)
    else none

def isExponent (cs : List Char) : Bool := isDigitRun Char.isDigit (afterSign cs).2

/-- The parts of a text around the first character of a kind. -/
def splitAtChar (p : Char → Bool) (cs : List Char) : List Char × Option (List Char) :=
  match cs.dropWhile fun c => !p c with
  | [] => (cs, none)
  | _ :: rest => (cs.takeWhile fun c => !p c, some rest)

def exponentOf (cs : List Char) : Int :=
  let n := numberOf 10 (afterSign cs).2
  if cs.head? = some '-' then -(n : Int) else n

/-- A number with a fraction or an exponent, or one of the names for what is not a number. -/
def float? (cs : List Char) : Option Value :=
  let body := (afterSign cs).2
  if body = "inf".toList ∨ body = "nan".toList then some (.float true)
  else
    let (mantissa, exponent) := splitAtChar (fun c => c == 'e' || c == 'E') body
    let (whole, decimals) := splitAtChar (· == '.') mantissa
    if isWhole whole && (exponent.isSome || decimals.isSome) && exponent.all isExponent &&
        decimals.all (isDigitRun Char.isDigit) then
      let places := (decimals.getD []).filter (· != '_')
      let written := (exponent.map exponentOf).getD 0
      some (.float (Decimal.isFinite (numberOf 10 (whole ++ places)) (written - places.length)))
    else none

def digits? (n : Nat) (cs : List Char) : Option Nat :=
  if cs.length = n ∧ cs.all Char.isDigit then some (numberOf 10 cs) else none

def isLeapYear (year : Nat) : Bool := year % 4 == 0 && (year % 100 != 0 || year % 400 == 0)

def daysIn (year month : Nat) : Nat :=
  if month = 2 then (if isLeapYear year then 29 else 28)
  else if month = 4 ∨ month = 6 ∨ month = 9 ∨ month = 11 then 30
  else 31

def isDate (cs : List Char) : Bool :=
  match digits? 4 (cs.take 4), digits? 2 ((cs.drop 5).take 2), digits? 2 (cs.drop 8) with
  | some year, some month, some day =>
    cs[4]? == some '-' && cs[7]? == some '-' && 1 ≤ month && month ≤ 12 && 1 ≤ day &&
      day ≤ daysIn year month
  | _, _, _ => false

def isClock (cs : List Char) : Bool :=
  match digits? 2 (cs.take 2), digits? 2 (cs.drop 3) with
  | some hour, some minute => cs[2]? == some ':' && hour ≤ 23 && minute ≤ 59
  | _, _ => false

def isSeconds (cs : List Char) : Bool :=
  let (whole, decimals) := splitAtChar (· == '.') cs
  (digits? 2 whole).any (· ≤ 60) && decimals.all fun ds => !ds.isEmpty && ds.all Char.isDigit

/-- A time of hours and minutes, perhaps with seconds. -/
def isTime (cs : List Char) : Bool :=
  isClock (cs.take 5) &&
    match cs.drop 5 with
    | [] => true
    | ':' :: rest => isSeconds rest
    | _ => false

def isOffsetTime (cs : List Char) : Bool :=
  match splitAtChar (fun c => c == 'Z' || c == 'z' || c == '+' || c == '-') cs with
  | (time, none) => isTime time
  | (time, some offset) =>
    isTime time &&
      (if cs[time.length]?.any fun c => c == 'Z' || c == 'z' then offset.isEmpty
        else isClock offset)

/-- A date, a time, or both with a separator between them. -/
def isDateTime (cs : List Char) : Bool :=
  isDate cs || isTime cs ||
    (isDate (cs.take 10) && (cs[10]?.any fun c => c == 'T' || c == 't' || c == ' ') &&
      isOffsetTime (cs.drop 11))

def atomValue (cs : List Char) : Option Value :=
  if cs = "true".toList then some (.bool true)
  else if cs = "false".toList then some (.bool false)
  else
    match integer? cs with
    | some n => some (.int n)
    | none => float? cs <|> if isDateTime cs then some .dateTime else none

/-- The characters of a value without quotes; a date may have a time after one space. -/
def atomSpan (cs : List Char) : List Char × List Char :=
  let first := cs.takeWhile isAtomChar
  match cs.dropWhile isAtomChar with
  | ' ' :: c :: rest =>
    if isDate first && c.isDigit then
      (first ++ ' ' :: (c :: rest).takeWhile isAtomChar, (c :: rest).dropWhile isAtomChar)
    else (first, ' ' :: c :: rest)
  | rest => (first, rest)

def atom (cs : List Char) : Option (Value × List Char) :=
  (atomValue (atomSpan cs).1).map (·, (atomSpan cs).2)

end CubeQuery.Toml
