import CubeQuery.Mdx.Identifier
import CubeQuery.Text.Capital

/-!
# Fragments

The expressions a caller may write: identifiers, sets in braces, parenthesized lists, ranges and
function calls. A fragment has one canonical text.
-/

namespace CubeQuery.Mdx

open Text

inductive Fragment where
  | identifier (name : Identifier)
  | braces (items : List Fragment)
  | parens (items : List Fragment)
  | range (low high : Fragment)
  | call (function : String) (arguments : List Fragment)
deriving Repr

namespace Fragment

mutual

def chars : Fragment → List Char
  | .identifier name => name.chars
  | .braces items => '\x7b' :: (listChars items ++ ['\x7d'])
  | .parens items => '(' :: (listChars items ++ [')'])
  | .range low high => low.chars ++ ' ' :: ':' :: ' ' :: high.chars
  | .call function arguments => function.toList ++ '(' :: (listChars arguments ++ [')'])

def listChars : List Fragment → List Char
  | [] => []
  | [f] => f.chars
  | f :: rest => f.chars ++ ',' :: ' ' :: listChars rest

end

def text (f : Fragment) : String := String.ofList f.chars

def operator? : Fragment → Option String
  | .identifier _ => none
  | .braces _ => some "\x7b\x7d"
  | .parens _ => some "()"
  | .range .. => some ":"
  | .call function _ => some function

def operands : Fragment → List Fragment
  | .identifier _ => []
  | .braces items => items
  | .parens items => items
  | .range low high => [low, high]
  | .call _ arguments => arguments

end Fragment

/-! ## Reading fragments -/

/-- The capitalized name of the function that an identifier before a parenthesis calls. -/
def Identifier.function? (i : Identifier) : Option String :=
  match i.segments with
  | [⟨.unquoted, name⟩] => some (String.ofList (capitals name.toList))
  | _ => none

/-- Elements separated by commas up to the closing character, at most `fuel` of them. -/
def listItems (element : Reader Fragment) (close : Char) : Nat → Reader (List Fragment)
  | 0, _ => .error .unexpectedEnd
  | fuel + 1, cs => do
    let (item, rest) ← element cs
    match skipBlanks rest with
    | [] => .error .unexpectedEnd
    | c :: rest =>
      if c = ',' then
        let (items, rest) ← listItems element close fuel rest
        return (item :: items, rest)
      else if c = close then return ([item], rest)
      else .error (.unexpected c rest)

def listUpTo (element : Reader Fragment) (close : Char) : Reader (List Fragment) := fun cs =>
  match skipBlanks cs with
  | [] => .error .unexpectedEnd
  | c :: rest => if c = close then .ok ([], rest) else listItems element close cs.length (c :: rest)

def expressionOf (primary : Reader Fragment) : Reader Fragment := fun cs => do
  let (low, rest) ← primary cs
  match skipBlanks rest with
  | ':' :: rest =>
    let (high, rest) ← primary rest
    return (.range low high, rest)
  | rest => return (low, rest)

/-- A primary expression, with the given reader of what stands inside brackets. -/
def primaryOf (inner : Reader Fragment) : Reader Fragment := fun cs =>
  match skipBlanks cs with
  | [] => .error .unexpectedEnd
  | '\x7b' :: rest => do
    let (items, rest) ← listUpTo inner '\x7d' rest
    return (.braces items, rest)
  | '(' :: rest => do
    let (items, rest) ← listUpTo inner ')' rest
    if items.isEmpty then .error (.unexpected ')' rest) else return (.parens items, rest)
  | start => do
    let (name, rest) ← identifier start
    match name.function?, skipBlanks rest with
    | some function, '(' :: rest =>
      let (arguments, rest) ← listUpTo inner ')' rest
      return (.call function arguments, rest)
    | _, rest => return (.identifier name, rest)

/-- A primary expression whose brackets nest at most `depth` deep. -/
def primary : Nat → Reader Fragment
  | 0 => primaryOf fun _ => .error .unexpectedEnd
  | depth + 1 => primaryOf (expressionOf (primary depth))

def expression : Reader Fragment := fun cs => expressionOf (primary cs.length) cs

def Fragment.parse (text : String) : Except ParseError Fragment := readWhole expression text

end CubeQuery.Mdx
