import CubeQuery.Text.Table.Capital

/-!
# Capital letters

The full capital form of a text, in which one character may become several.
-/

namespace CubeQuery.Text

def shiftCode (code : Nat) (distance : Int) : Char := Char.ofNat (code + distance).toNat

def capitalFromTables (c : Char) : List Char :=
  match capitalSequences.find? (·.1 == c.toNat) with
  | some (_, codes) => codes.map Char.ofNat
  | none =>
    match capitalRuns.find? fun (first, last, step, _) =>
        first ≤ c.toNat && c.toNat ≤ last && (c.toNat - first) % step == 0 with
    | some (_, _, _, distance) => [shiftCode c.toNat distance]
    | none => [c]

/-- The full capital form of a character. -/
def capital (c : Char) : List Char :=
  if c.toNat < 128 then [c.toUpper] else capitalFromTables c

def capitals (cs : List Char) : List Char := cs.flatMap capital

@[simp] theorem capitals_append (a b : List Char) :
    capitals (a ++ b) = capitals a ++ capitals b := by
  simp [capitals]

end CubeQuery.Text
