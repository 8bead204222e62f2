/-!
# TOML values

The values of a TOML document, and tables under construction. A table knows whether a header or a
dotted key has made it, because that decides what may still be added to it.
-/

namespace CubeQuery.Toml

/-- A value; dates and times are recognized but not interpreted, and of a fraction or an exponent only
the size is judged. -/
inductive Value where
  | str (s : String)
  | int (n : Int)
  /-- A number that is not written as an integer, and whether it lies in the finite range. -/
  | float (inRange : Bool)
  | bool (b : Bool)
  | dateTime
  | arr (items : List Value)
  | table (entries : List (String × Value))
deriving Repr, Inhabited

mutual

/-- Whether all numbers in a value lie in range: integers in 128 bits, with a sign or without. -/
def Value.isReadable : Value → Bool
  | .int n => -(Nat.pow 2 127) ≤ n && n < Nat.pow 2 128
  | .float inRange => inRange
  | .arr items => areReadable items
  | .table entries => areReadableEntries entries
  | _ => true

def areReadable : List Value → Bool
  | [] => true
  | v :: rest => v.isReadable && areReadable rest

def areReadableEntries : List (String × Value) → Bool
  | [] => true
  | (_, v) :: rest => v.isReadable && areReadableEntries rest

end

inductive Origin where
  /-- Only on the way to a table below it. -/
  | passed
  /-- By a dotted key. -/
  | dotted
  /-- By a header of its own. -/
  | header
deriving DecidableEq, Repr

inductive Node where
  | leaf (v : Value)
  | table (origin : Origin) (entries : List (String × Node))
  /-- An array of tables: the earlier ones, and the one that is being filled. -/
  | tables (earlier : List (List (String × Node))) (last : List (String × Node))

abbrev Entries := List (String × Node)

namespace Entries

def get? (entries : Entries) (key : String) : Option Node :=
  (entries.find? (·.1 == key)).map (·.2)

/-- Puts a node in place of the one with the same key, or at the end. -/
def set (entries : Entries) (key : String) (node : Node) : Entries :=
  if entries.any (·.1 == key) then entries.map fun e => if e.1 == key then (key, node) else e
  else entries ++ [(key, node)]

def addLeaf (key : String) (v : Value) (entries : Entries) : Option Entries :=
  match get? entries key with
  | none => some (entries ++ [(key, .leaf v)])
  | some _ => none

/-- Adds a value under a dotted key. The table that takes it must be made by dotted keys; on the way
to it, tables that have no header of their own are passed, and the last table of an array. -/
def insert (v : Value) : List String → Entries → Option Entries
  | [], _ => none
  | [key], entries => addLeaf key v entries
  | key :: next :: rest, entries =>
    match get? entries key with
    | none => do return set entries key (.table .dotted (← insert v (next :: rest) []))
    | some (.leaf _) => none
    | some (.table origin below) =>
      if origin = .dotted ∨ (origin = .passed ∧ !rest.isEmpty) then do
        return set entries key (.table origin (← insert v (next :: rest) below))
      else none
    | some (.tables earlier last) =>
      if rest.isEmpty then none
      else do return set entries key (.tables earlier (← insert v (next :: rest) last))

def atHeader (change : Entries → Option Entries) : List String → Entries → Option Entries
  | [], entries => change entries
  | key :: rest, entries =>
    match get? entries key with
    | none => do return set entries key (.table .passed (← atHeader change rest []))
    | some (.leaf _) => none
    | some (.table origin below) => do
      return set entries key (.table origin (← atHeader change rest below))
    | some (.tables earlier last) => do
      return set entries key (.tables earlier (← atHeader change rest last))

def openTable (key : String) (entries : Entries) : Option Entries :=
  match get? entries key with
  | none => some (set entries key (.table .header []))
  | some (.table .passed below) => some (set entries key (.table .header below))
  | some _ => none

def openElement (key : String) (entries : Entries) : Option Entries :=
  match get? entries key with
  | none => some (set entries key (.tables [] []))
  | some (.tables earlier last) => some (set entries key (.tables (earlier ++ [last]) []))
  | some _ => none

end Entries

mutual

def Node.value : Node → Value
  | .leaf v => v
  | .table _ entries => .table (entryValues entries)
  | .tables earlier last => .arr (tableValues earlier ++ [.table (entryValues last)])

def entryValues : List (String × Node) → List (String × Value)
  | [] => []
  | (key, node) :: rest => (key, node.value) :: entryValues rest

def tableValues : List (List (String × Node)) → List Value
  | [] => []
  | entries :: rest => .table (entryValues entries) :: tableValues rest

end

end CubeQuery.Toml
