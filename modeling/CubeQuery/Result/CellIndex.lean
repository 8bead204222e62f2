import CubeQuery.Result.Cells
import Std.Data.HashMap

/-!
# Indexed cells

The cells of a result laid out for many look-ups. An index answers as the result itself does
(`get_index`).
-/

namespace CubeQuery

inductive CellIndex where
  | dense (values : Array Scalar) (strides : List Nat)
  | keyed (values : Std.HashMap (List Nat) Scalar)

/-- The values of keyed cells by their coordinates, a later cell over an earlier one. -/
def keyedTable (cells : List KeyedCell) : Std.HashMap (List Nat) Scalar :=
  cells.foldl (fun table c => table.insert c.coordinates c.value) ∅

def CellResult.index (r : CellResult) : CellIndex :=
  match r.cells with
  | .dense values => .dense values.toArray (strides r.shape)
  | .keyed cells => .keyed (keyedTable cells)

namespace CellIndex

def addOffset (sum : Nat) : List Nat → List Nat → Nat
  | c :: coordinates, s :: strides => addOffset (sum + c * s) coordinates strides
  | _, _ => sum

def get (x : CellIndex) (coordinates : List Nat) : Scalar :=
  match x with
  | .dense values strides =>
    values.getD (addOffset 0 coordinates strides % UInt64.size) .null
  | .keyed values => values.getD coordinates .null

theorem addOffset_eq (sum : Nat) (coordinates strides : List Nat) :
    addOffset sum coordinates strides =
      sum + (List.zipWith (· * ·) coordinates strides).foldr (· + ·) 0 := by
  induction coordinates generalizing sum strides with
  | nil => simp [addOffset]
  | cons c coordinates ih =>
    cases strides with
    | nil => simp [addOffset]
    | cons s strides => simp [addOffset, ih, Nat.add_assoc]

theorem getD_keyedTable (cells : List KeyedCell) (coordinates : List Nat) :
    (keyedTable cells).getD coordinates .null = keyedValue cells coordinates := by
  suffices h : ∀ table : Std.HashMap (List Nat) Scalar,
      (cells.foldl (fun table c => table.insert c.coordinates c.value) table).getD coordinates .null =
        ((cells.reverse.find? (·.coordinates == coordinates)).map (·.value)).getD
          (table.getD coordinates .null) by
    simpa [keyedTable, keyedValue] using h ∅
  induction cells with
  | nil => simp
  | cons c rest ih =>
    intro table
    rw [List.foldl_cons, ih, List.reverse_cons, List.find?_append, Std.HashMap.getD_insert]
    cases rest.reverse.find? (·.coordinates == coordinates) with
    | some found => simp
    | none => by_cases h : c.coordinates = coordinates <;> simp [h]

theorem get_index (r : CellResult) (coordinates : List Nat) :
    r.index.get coordinates = r.cell coordinates := by
  unfold CellResult.index CellResult.cell get densePlace denseOffset
  cases r.cells with
  | dense values => simp [Array.getD_eq_getD_getElem?, List.getD_eq_getElem?_getD, addOffset_eq]
  | keyed cells => exact getD_keyedTable cells coordinates

end CellIndex

def CellResult.nested (r : CellResult) (leaf : Scalar → Json) : Json :=
  let cells := r.index
  nest (fun coordinates => leaf (cells.get coordinates)) r.shape.reverse []

theorem CellResult.nested_eq (r : CellResult) (leaf : Scalar → Json) :
    r.nested leaf = nest (fun coordinates => leaf (r.cell coordinates)) r.shape.reverse [] := by
  simp [nested, CellIndex.get_index]

end CubeQuery
