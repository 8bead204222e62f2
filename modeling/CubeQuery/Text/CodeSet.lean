/-!
# Sets of character codes

A set of codes is kept as the ascending list of codes at which membership changes, so a property
with many ranges is one short table.
-/

namespace CubeQuery.Text

/-- The codes at which membership changes, in ascending order, starting outside the set. -/
structure CodeSet where
  flips : List Nat

namespace CodeSet

/-- A code is inside exactly when an odd number of changes lies at or below it. -/
def has (s : CodeSet) (code : Nat) : Bool :=
  s.flips.countP (· ≤ code) % 2 == 1

end CodeSet

end CubeQuery.Text
