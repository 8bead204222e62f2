import CubeQuery.Decimal.Reading
import CubeQuery.Json.Value

/-!
# Reading JSON

A reader for one JSON value. The syntax is the same everywhere in a text, but not everything that is
well written is a value: a number beyond the largest finite one, a text with an escape that is half of
a pair of surrogates, and a container that is nested too deep are unreadable. Whoever leaves such a
part alone may use the rest.
-/

namespace CubeQuery.Json

open Decimal

/-- Takes a value off the front of a text. -/
abbrev Reader (α : Type) := List Char → Option (α × List Char)

def isGap (c : Char) : Bool := c == ' ' || c == '\n' || c == '\t' || c == '\r'

def skipGap (cs : List Char) : List Char := cs.dropWhile isGap

def literal : List Char → Reader Unit
  | [], cs => some ((), cs)
  | _ :: _, [] => none
  | l :: ls, c :: cs => if l = c then literal ls cs else none

def hexValue (c : Char) : Option Nat :=
  if '0' ≤ c ∧ c ≤ '9' then some (c.toNat - 48)
  else if 'a' ≤ c ∧ c ≤ 'f' then some (c.toNat - 87)
  else if 'A' ≤ c ∧ c ≤ 'F' then some (c.toNat - 55)
  else none

def hexUnit : Reader Nat
  | a :: b :: c :: d :: rest => do
    let a ← hexValue a
    let b ← hexValue b
    let c ← hexValue c
    let d ← hexValue d
    return (((a * 16 + b) * 16 + c) * 16 + d, rest)
  | _ => none

/-- The second unit of a pair of surrogates, with its backslash. -/
def lowUnit : Reader Nat := fun cs => do
  let (_, rest) ← literal ['\\', 'u'] cs
  let (unit, rest) ← hexUnit rest
  if 0xdc00 ≤ unit ∧ unit ≤ 0xdfff then return (unit, rest) else none

/-- The character of a `\u` escape, which takes two units outside the basic plane; half of such a pair
is no character. -/
def unicodeEscape : Reader (Option Char) := fun cs => do
  let (unit, rest) ← hexUnit cs
  if unit < 0xd800 ∨ 0xdfff < unit then return (some (Char.ofNat unit), rest)
  else
    match lowUnit rest with
    | some (low, after) =>
      if unit ≤ 0xdbff then
        return (some (Char.ofNat (0x10000 + (unit - 0xd800) * 0x400 + (low - 0xdc00))), after)
      else return (none, rest)
    | none => return (none, rest)

def escape : Reader (Option Char)
  | '"' :: rest => some (some '"', rest)
  | '\\' :: rest => some (some '\\', rest)
  | '/' :: rest => some (some '/', rest)
  | 'b' :: rest => some (some '\x08', rest)
  | 'f' :: rest => some (some '\x0c', rest)
  | 'n' :: rest => some (some '\n', rest)
  | 'r' :: rest => some (some '\r', rest)
  | 't' :: rest => some (some '\t', rest)
  | 'u' :: rest => unicodeEscape rest
  | _ => none

/-- The characters up to the closing quote, at most `fuel` steps away. -/
def quotedBody : Nat → Reader (List (Option Char))
  | 0, _ => none
  | _ + 1, [] => none
  | fuel + 1, c :: cs =>
    if c = '"' then some ([], cs)
    else if c = '\\' then do
      let (x, rest) ← escape cs
      let (xs, rest) ← quotedBody fuel rest
      return (x :: xs, rest)
    else if c.toNat < 32 then none
    else do
      let (xs, rest) ← quotedBody fuel cs
      return (some c :: xs, rest)

/-- A quoted text, from its opening quote; there is no text where an escape is no character. -/
def quotedText (fuel : Nat) : Reader (Option String)
  | '"' :: cs => do
    let (body, rest) ← quotedBody fuel cs
    return ((body.mapM id).map String.ofList, rest)
  | _ => none

def digitValue (c : Char) : Nat := c.toNat - 48

def spanDigits (cs : List Char) : List Nat × List Char :=
  ((cs.takeWhile Char.isDigit).map digitValue, cs.dropWhile Char.isDigit)

/-- The digits before the point: a zero stands alone. -/
def wholeDigits : Reader (List Nat)
  | '0' :: rest => if (rest.headD ' ').isDigit then none else some ([0], rest)
  | c :: rest => if c.isDigit then some (spanDigits (c :: rest)) else none
  | [] => none

def exponentPart : Reader Int := fun cs =>
  let (negative, cs) :=
    match cs with
    | '+' :: rest => (false, rest)
    | '-' :: rest => (true, rest)
    | rest => (false, rest)
  match spanDigits cs with
  | ([], _) => none
  | (digits, rest) =>
    let n : Nat := digits.foldl (fun n d => n * 10 + d) 0
    some (if negative then -(n : Int) else n, rest)

def scaled (negative : Bool) (ds : Digits) (written : Int) : Json :=
  if written.natAbs ≤ exponentBound.toNat then
    match scaleByTen ds.value (ds.exponent + written) with
    | some x => .float (x.withSign negative)
    | none => .unreadable
  else if ds.value = 0 ∨ written < 0 then .float (Binary64.zero negative)
  else .unreadable

/-- A whole number that fits 64 bits, any other one as a binary fraction. -/
def whole (negative : Bool) (ds : Digits) : Json :=
  if ds.full then scaled negative ds 0
  else if negative then
    if ds.value = 0 ∨ word64Bound / 2 < ds.value then
      .float ((Binary64.ofNat ds.value).withSign true)
    else .int (-(ds.value : Int))
  else .int ds.value

def finishNumber (negative fraction : Bool) (ds : Digits) : Reader Json
  | 'e' :: rest | 'E' :: rest =>
    (exponentPart rest).map fun (written, rest) => (scaled negative ds written, rest)
  | rest => some (if fraction then scaled negative ds 0 else whole negative ds, rest)

def unsignedNumber (negative : Bool) : Reader Json := fun cs => do
  let (digits, rest) ← wholeDigits cs
  let ds := digits.foldl Digits.pushWhole ⟨0, 0, false⟩
  match rest with
  | '.' :: rest =>
    match spanDigits rest with
    | ([], _) => none
    | (fraction, rest) =>
      finishNumber negative true (fraction.foldl Digits.pushFraction ds.pastPoint) rest
  | rest => finishNumber negative false ds rest

def number : Reader Json
  | '-' :: rest => unsignedNumber true rest
  | rest => unsignedNumber false rest

def leaf (fuel : Nat) : Reader Json := fun cs =>
  match cs with
  | 'n' :: _ => (literal "null".toList cs).map fun (_, rest) => (.null, rest)
  | 't' :: _ => (literal "true".toList cs).map fun (_, rest) => (.bool true, rest)
  | 'f' :: _ => (literal "false".toList cs).map fun (_, rest) => (.bool false, rest)
  | '"' :: _ => (quotedText fuel cs).map fun (s, rest) => ((s.map str).getD .unreadable, rest)
  | _ => number cs

def fieldName (fuel : Nat) : Reader (Option String) := fun cs => do
  let (name, rest) ← quotedText fuel cs
  let (_, rest) ← literal [':'] (skipGap rest)
  return (name, rest)

/-! ## Containers -/

/-- Elements separated by commas up to the closing character, at least one. -/
def elements {α : Type} (element : Reader α) (close : Char) : Nat → Reader (List α)
  | 0, _ => none
  | fuel + 1, cs => do
    let (x, rest) ← element (skipGap cs)
    match skipGap rest with
    | c :: rest =>
      if c = close then return ([x], rest)
      else if c = ',' then
        let (xs, rest) ← elements element close fuel rest
        return (x :: xs, rest)
      else none
    | [] => none

def listOf {α : Type} (fuel : Nat) (element : Reader α) (close : Char) : Reader (List α) :=
  fun cs =>
    match skipGap cs with
    | [] => none
    | c :: rest => if c = close then some ([], rest) else elements element close fuel (c :: rest)

def fieldOf (fuel : Nat) (value : Reader Json) : Reader (Option String × Json) := fun cs => do
  let (name, rest) ← fieldName fuel cs
  let (v, rest) ← value (skipGap rest)
  return ((name, v), rest)

def objectOf (fields : List (Option String × Json)) : Json :=
  match fields.mapM fun (name, v) => name.map (·, v) with
  | some fields => .obj fields
  | none => .unreadable

/-- Drops the rest of open containers, given by their closing characters, the innermost first. Only
their syntax is looked at. `fresh` is set where the innermost one has no element yet. -/
def skipOpen (fuel : Nat) : Nat → Bool → List Char → List Char → Option (List Char)
  | _, _, [], cs => some cs
  | 0, _, _, _ => none
  | steps + 1, fresh, close :: outer, cs =>
    match skipGap cs with
    | [] => none
    | c :: rest =>
      if c = close then skipOpen fuel steps false outer rest
      else
        let start := if fresh then some (c :: rest) else if c = ',' then some (skipGap rest) else none
        let named := fun cs =>
          if close = '\x7d' then (fieldName fuel cs).map fun (_, rest) => skipGap rest else some cs
        match start.bind named with
        | none => none
        | some ('[' :: rest) => skipOpen fuel steps true (']' :: close :: outer) rest
        | some ('\x7b' :: rest) => skipOpen fuel steps true ('\x7d' :: close :: outer) rest
        | some cs =>
          match leaf fuel cs with
          | some (_, rest) => skipOpen fuel steps false (close :: outer) rest
          | none => none

/-- A value whose containers nest at most `depth` deep; a deeper container is unreadable. -/
def value (fuel : Nat) : Nat → Reader Json
  | depth, cs =>
    match cs with
    | '[' :: rest =>
      match depth with
      | 0 => (skipOpen fuel fuel true [']'] rest).map (.unreadable, ·)
      | depth + 1 =>
        (listOf fuel (value fuel depth) ']' rest).map fun (items, rest) => (.arr items, rest)
    | '\x7b' :: rest =>
      match depth with
      | 0 => (skipOpen fuel fuel true ['\x7d'] rest).map (.unreadable, ·)
      | depth + 1 =>
        (listOf fuel (fieldOf fuel (value fuel depth)) '\x7d' rest).map fun (fields, rest) =>
          (objectOf fields, rest)
    | _ => leaf fuel cs

def maxDepth : Nat := 127

/-- The value of a whole text, parts of which may be unreadable; `none` if the syntax is wrong. -/
def scan (text : String) : Option Json :=
  let cs := text.toList
  match value (cs.length + 1) maxDepth (skipGap cs) with
  | some (v, rest) => if (skipGap rest).isEmpty then some v else none
  | none => none

theorem scan_ofList (cs : List Char) :
    scan (String.ofList cs) = (value (cs.length + 1) maxDepth (skipGap cs)).bind fun (v, rest) =>
      if (skipGap rest).isEmpty then some v else none := by
  rw [scan, String.toList_ofList]
  cases value (cs.length + 1) maxDepth (skipGap cs) <;> rfl

/-- The value of a whole text; `none` if it is not JSON or has an unreadable part. -/
def parse (text : String) : Option Json := (scan text).filter (·.isReadable)

end CubeQuery.Json
