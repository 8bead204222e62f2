import CubeQuery.Toml.Value

/-!
# Decoding TOML

Decoders take settings out of a TOML value. A record is a table, whose unknown fields are ignored if
their numbers lie in range, or an array of its fields in order, whose surplus items are ignored
whatever they hold; a date counts as a table without known fields.
-/

namespace CubeQuery.Toml

/-- Takes a domain value out of TOML; `none` if the TOML has another shape. -/
abbrev Decoder (α : Type) := Value → Option α

def text? : Decoder String
  | .str s => some s
  | _ => none

def flag? : Decoder Bool
  | .bool b => some b
  | _ => none

def size? : Decoder Nat
  | .int n => if 0 ≤ n ∧ n < UInt64.size then some n.toNat else none
  | _ => none

def list? {α : Type} (element : Decoder α) : Decoder (List α)
  | .arr items => items.mapM element
  | _ => none

structure Fields where
  entries : List (String × Value)

def fields? (names : List String) : Decoder Fields
  | .table entries =>
    if entries.all fun (name, v) => names.contains name || v.isReadable then some ⟨entries⟩ else none
  | .arr items => some ⟨names.zip items⟩
  | .dateTime => some ⟨[]⟩
  | _ => none

namespace Fields

def withDefault {α : Type} (r : Fields) (name : String) (d : Decoder α) (default : α) :
    Option α :=
  match r.entries.find? (·.1 == name) with
  | some (_, v) => d v
  | none => some default

def optional {α : Type} (r : Fields) (name : String) (d : Decoder α) : Option (Option α) :=
  r.withDefault name (fun v => (d v).map some) none

end Fields

end CubeQuery.Toml
