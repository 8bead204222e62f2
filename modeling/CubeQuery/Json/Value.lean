import CubeQuery.Decimal.Layout

/-!
# JSON values

The value type, with whole numbers kept apart from numbers that have a fraction or an exponent, and
the compact and the indented text of a value.
-/

namespace CubeQuery

open Decimal

/-- A JSON value; the fields of an object keep their order and may repeat a name. -/
inductive Json where
  /-- A part of a text that is well written and yet has no value. -/
  | unreadable
  | null
  | bool (value : Bool)
  | int (value : Int)
  | float (value : Binary64)
  | str (value : String)
  | arr (items : List Json)
  | obj (fields : List (String × Json))
deriving Inhabited

namespace Json

def hexDigit (n : Nat) : Char := (Nat.toDigits 16 n).headD '0'

/-- A character inside a quoted text: quotes, backslashes and control characters are escaped. -/
def escapeChar (c : Char) : String :=
  match c with
  | '"' => "\\\""
  | '\\' => "\\\\"
  | '\x08' => "\\b"
  | '\x0c' => "\\f"
  | '\n' => "\\n"
  | '\r' => "\\r"
  | '\t' => "\\t"
  | c =>
    if c.toNat < 32 then
      "\\u00" ++ String.ofList [hexDigit (c.toNat / 16), hexDigit (c.toNat % 16)]
    else String.singleton c

/-- Adds a quoted text at the end of another text. -/
def writeQuoted (out s : String) : String :=
  s.toList.foldl (fun out c => out ++ escapeChar c) (out ++ "\"") ++ "\""

/-- The text of a value that is no container; what has no value shows as null. -/
def writeLeaf (out : String) : Json → String
  | .bool b => out ++ (if b then "true" else "false")
  | .int n => out ++ intText n
  | .float x => out ++ x.compact
  | .str s => writeQuoted out s
  | _ => out ++ "null"

mutual

/-- Adds the text of a value without any white space at the end of another text. -/
def write (out : String) : Json → String
  | .arr items => writeItems (out ++ "[") items ++ "]"
  | .obj fields => writeFields (out ++ "\x7b") fields ++ "\x7d"
  | leaf => writeLeaf out leaf

def writeItems (out : String) : List Json → String
  | [] => out
  | [item] => write out item
  | item :: rest => writeItems (write out item ++ ",") rest

def writeFields (out : String) : List (String × Json) → String
  | [] => out
  | [(name, value)] => write (writeQuoted out name ++ ":") value
  | (name, value) :: rest => writeFields (write (writeQuoted out name ++ ":") value ++ ",") rest

end

def compact (value : Json) : String := write "" value

/-- The start of a line at a depth: two blanks for each level. -/
def lineAt (depth : Nat) : String := "\n" ++ String.ofList (List.replicate (2 * depth) ' ')

mutual

def writeIndented (depth : Nat) (out : String) : Json → String
  | .arr [] => out ++ "[]"
  | .obj [] => out ++ "\x7b\x7d"
  | .arr items => writeItemLines (depth + 1) (out ++ "[") items ++ lineAt depth ++ "]"
  | .obj fields => writeFieldLines (depth + 1) (out ++ "\x7b") fields ++ lineAt depth ++ "\x7d"
  | leaf => writeLeaf out leaf

def writeItemLines (depth : Nat) (out : String) : List Json → String
  | [] => out
  | [item] => writeIndented depth (out ++ lineAt depth) item
  | item :: rest =>
    writeItemLines depth (writeIndented depth (out ++ lineAt depth) item ++ ",") rest

def writeFieldLines (depth : Nat) (out : String) : List (String × Json) → String
  | [] => out
  | [(name, value)] => writeIndented depth (writeQuoted (out ++ lineAt depth) name ++ ": ") value
  | (name, value) :: rest =>
    writeFieldLines depth
      (writeIndented depth (writeQuoted (out ++ lineAt depth) name ++ ": ") value ++ ",") rest

end

def pretty (value : Json) : String := writeIndented 0 "" value

mutual

/-- Whether every part of a value has a value. -/
def isReadable : Json → Bool
  | .unreadable => false
  | .arr items => areReadable items
  | .obj fields => areReadableFields fields
  | _ => true

def areReadable : List Json → Bool
  | [] => true
  | item :: rest => item.isReadable && areReadable rest

def areReadableFields : List (String × Json) → Bool
  | [] => true
  | (_, value) :: rest => value.isReadable && areReadableFields rest

end

def ofNat (n : Nat) : Json := .int n

def ofText? : Option String → Json
  | some s => .str s
  | none => .null

/-- A field that is left out when it has no value. -/
def field? (name : String) : Option Json → List (String × Json)
  | some value => [(name, value)]
  | none => []

end Json

end CubeQuery
