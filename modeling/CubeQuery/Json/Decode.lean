import CubeQuery.Json.Value
import CubeQuery.NameMap

/-!
# Decoding JSON

Decoders take a domain value out of a JSON value. A record is written as an object, whose unknown
fields are ignored, readable or not, and whose known ones may not repeat, or as an array of its fields
in order.
-/

namespace CubeQuery.Json

/-- Takes a domain value out of JSON; `none` if the JSON has another shape. -/
abbrev Decoder (α : Type) := Json → Option α

def text? : Decoder String
  | .str s => some s
  | _ => none

def flag? : Decoder Bool
  | .bool b => some b
  | _ => none

/-- A natural number of 64 bits. -/
def size? : Decoder Nat
  | .int n => if 0 ≤ n ∧ n < UInt64.size then some n.toNat else none
  | _ => none

def list? {α : Type} (element : Decoder α) : Decoder (List α)
  | .arr items => items.mapM element
  | _ => none

def nameMap? {α : Type} (element : Decoder α) : Decoder (NameMap α)
  | .obj fields =>
    (fields.mapM fun (field : String × Json) => (element field.2).map (field.1, ·)).map NameMap.ofList
  | _ => none

def nullable? {α : Type} (element : Decoder α) : Decoder (Option α)
  | .null => some none
  | v => (element v).map some

structure Record where
  fields : List (String × Json)

def objectRecord? (names : List String) : Decoder Record
  | .obj fields =>
    let known := fields.filter fun (name, _) => names.contains name
    if (known.map (·.1)).Nodup then some ⟨known⟩ else none
  | _ => none

/-- A record with fields called `names`, as an object or as an array in their order. -/
def record? (names : List String) : Decoder Record
  | .arr items => if items.length ≤ names.length then some ⟨names.zip items⟩ else none
  | v => objectRecord? names v

namespace Record

def get? (r : Record) (name : String) : Option Json :=
  (r.fields.find? (·.1 == name)).map (·.2)

def required {α : Type} (r : Record) (name : String) (d : Decoder α) : Option α :=
  (r.get? name).bind d

def withDefault {α : Type} (r : Record) (name : String) (d : Decoder α) (default : α) :
    Option α :=
  match r.get? name with
  | some v => d v
  | none => some default

/-- A field that may be absent or null. -/
def optional {α : Type} (r : Record) (name : String) (d : Decoder α) : Option (Option α) :=
  r.withDefault name (nullable? d) none

end Record

/-- An object with one field, as the name of its case and the value of that case. -/
def case? : Decoder (String × Json)
  | .obj [(name, v)] => some (name, v)
  | _ => none

mutual

/-- The value in which of several fields with one name only the last is left. -/
def settled : Json → Json
  | .arr items => .arr (settledItems items)
  | .obj fields => .obj (NameMap.ofList (settledFields fields)).entries
  | v => v

def settledItems : List Json → List Json
  | [] => []
  | item :: rest => settled item :: settledItems rest

def settledFields : List (String × Json) → List (String × Json)
  | [] => []
  | (name, v) :: rest => (name, settled v) :: settledFields rest

end

/-- Any value without unreadable parts, of whose fields with one name the last is left. -/
def readable? : Decoder Json := fun v => if v.isReadable then some v.settled else none

end CubeQuery.Json
