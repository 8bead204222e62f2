import CubeQuery.Toml.Atom
import CubeQuery.Toml.Text

/-!
# TOML documents

Keys, values and headers, line by line. A table may not be defined twice.
-/

namespace CubeQuery.Toml

/-- A comment at the front of a text is dropped, up to its line end. -/
def skipComment : List Char → Option (List Char)
  | '#' :: rest =>
    let after := rest.dropWhile isPrintable
    if after.isEmpty ∨ (newline? after).isSome then some after else none
  | cs => some cs

def skipLines : Nat → List Char → Option (List Char)
  | 0, _ => none
  | fuel + 1, cs => do
    let rest ← skipComment (skipSpaces cs)
    match newline? rest with
    | some rest => skipLines fuel rest
    | none => return rest

def skipTrivia (cs : List Char) : Option (List Char) := skipLines (cs.length + 1) cs

def endOfLine (cs : List Char) : Option (List Char) := do
  let rest ← skipComment (skipSpaces cs)
  if rest.isEmpty then return [] else newline? rest

def isKeyChar (c : Char) : Bool := c.isAlphanum || c == '_' || c == '-'

def simpleKey : Reader String := fun cs =>
  match cs with
  | '"' :: _ | '\'' :: _ => shortString cs
  | _ =>
    let key := cs.takeWhile isKeyChar
    if key.isEmpty then none else some (String.ofList key, cs.dropWhile isKeyChar)

/-- Keys with dots between them, at most `parts` of them. -/
def dottedKey : Nat → Reader (List String)
  | 0, _ => none
  | parts + 1, cs => do
    let (key, rest) ← simpleKey (skipSpaces cs)
    match skipSpaces rest with
    | '.' :: rest =>
      let (keys, rest) ← dottedKey parts rest
      return (key :: keys, rest)
    | rest => return ([key], rest)

/-- How deep arrays and inline tables may nest, and how many parts a dotted key may have. -/
def maxDepth : Nat := 80

/-- A dotted key with the equals sign after it; `skip` drops what may stand around the sign. -/
def keyEquals (skip : List Char → Option (List Char)) : Reader (List String) := fun cs => do
  let (keys, rest) ← dottedKey maxDepth cs
  match ← skip rest with
  | '=' :: rest => return (keys, ← skip rest)
  | _ => none

/-- The elements of an array up to its bracket; the last may have a comma after it. -/
def arrayItems (value : Reader Value) : Nat → Reader (List Value)
  | 0, _ => none
  | fuel + 1, cs => do
    match ← skipTrivia cs with
    | ']' :: rest => return ([], rest)
    | rest =>
      let (v, rest) ← value rest
      match ← skipTrivia rest with
      | ',' :: rest =>
        let (vs, rest) ← arrayItems value fuel rest
        return (v :: vs, rest)
      | ']' :: rest => return ([v], rest)
      | _ => none

def inlineFields (value : Reader Value) : Nat → Entries → Reader Entries
  | 0, _, _ => none
  | fuel + 1, entries, cs => do
    match ← skipTrivia cs with
    | '\x7d' :: rest => return (entries, rest)
    | rest =>
      let (keys, rest) ← keyEquals skipTrivia rest
      let (v, rest) ← value rest
      let entries ← entries.insert v keys
      match ← skipTrivia rest with
      | ',' :: rest => inlineFields value fuel entries rest
      | '\x7d' :: rest => return (entries, rest)
      | _ => none

/-- A value whose arrays and inline tables nest at most `depth` deep. -/
def value : Nat → Reader Value
  | depth, cs =>
    match cs with
    | '"' :: _ => (anyString cs).map fun (s, rest) => (.str s, rest)
    | '\'' :: _ => (anyString cs).map fun (s, rest) => (.str s, rest)
    | '[' :: rest =>
      match depth with
      | 0 => none
      | depth + 1 =>
        (arrayItems (value depth) (rest.length + 1) rest).map fun (vs, rest) => (.arr vs, rest)
    | '\x7b' :: rest =>
      match depth with
      | 0 => none
      | depth + 1 =>
        (inlineFields (value depth) (rest.length + 1) [] rest).map fun (entries, rest) =>
          (.table (entryValues entries), rest)
    | _ => atom cs

/-- A document as far as it has been read, and the path of the last header. -/
structure Draft where
  root : Entries
  path : List String

/-- A header in brackets, with the given number of them on either side. -/
def header (brackets : Nat) : Reader (List String) := fun cs => do
  let (keys, rest) ← dottedKey maxDepth cs
  if rest.take brackets = List.replicate brackets ']' then return (keys, rest.drop brackets)
  else none

def Draft.openHeader (d : Draft) (keys : List String)
    (change : String → Entries → Option Entries) : Option Draft := do
  let last ← keys.getLast?
  return ⟨← Entries.atHeader (change last) keys.dropLast d.root, keys⟩

def Draft.insert (d : Draft) (keys : List String) (v : Value) : Option Draft := do
  return { d with root := ← Entries.atHeader (Entries.insert v keys) d.path d.root }

/-- One header or one key with its value, up to the end of the line. -/
def item (d : Draft) : Reader Draft
  | '[' :: '[' :: cs => do
    let (keys, rest) ← header 2 cs
    return (← d.openHeader keys Entries.openElement, ← endOfLine rest)
  | '[' :: cs => do
    let (keys, rest) ← header 1 cs
    return (← d.openHeader keys Entries.openTable, ← endOfLine rest)
  | cs => do
    let (keys, rest) ← keyEquals (some ∘ skipSpaces) cs
    let (v, rest) ← value maxDepth rest
    return (← d.insert keys v, ← endOfLine rest)

def items : Nat → Draft → List Char → Option Draft
  | 0, _, _ => none
  | fuel + 1, d, cs => do
    match ← skipTrivia cs with
    | [] => return d
    | rest =>
      let (d, rest) ← item d rest
      items fuel d rest

def afterMark : List Char → List Char
  | '\ufeff' :: rest => rest
  | cs => cs

/-- The table of a whole document; `none` if it is not TOML. -/
def parse (text : String) : Option Value := do
  let d ← items (text.length + 1) ⟨[], []⟩ (afterMark text.toList)
  return .table (entryValues d.root)

end CubeQuery.Toml
