import Mathlib.Data.List.Forall2
import CubeQuery.Result.CellIndex

/-!
# Nested cells

The values inside nested arrays by their indices from the outermost array on. The arrays have the last
axis outermost, so the indices are the coordinates of a cell read backwards (`CellResult.at?_nested`).
-/

namespace CubeQuery

def Json.at? : Json → List Nat → Option Json
  | j, [] => some j
  | .arr items, i :: path => (items[i]?).bind fun j => j.at? path
  | _, _ => none

theorem at?_nest (leaf : List Nat → Json) {path sizes : List Nat}
    (h : List.Forall₂ (· < ·) path sizes) (suffix : List Nat) :
    (nest leaf sizes suffix).at? path = some (leaf (path.reverse ++ suffix)) := by
  induction h generalizing suffix with
  | nil => simp [nest, Json.at?]
  | @cons i size path sizes hi hpath ih =>
      rw [nest, Json.at?, List.getElem?_map, List.getElem?_range hi, Option.map_some,
        Option.bind_some, ih]
      simp

/-- A cell lies at its coordinates, taken from the last axis to the first. -/
theorem CellResult.at?_nested (r : CellResult) (leaf : Scalar → Json) {coordinates : List Nat}
    (h : List.Forall₂ (· < ·) coordinates r.shape) :
    (r.nested leaf).at? coordinates.reverse = some (leaf (r.cell coordinates)) := by
  rw [CellResult.nested_eq, at?_nest _ (List.forall₂_reverse_iff.2 h)]
  simp

end CubeQuery
