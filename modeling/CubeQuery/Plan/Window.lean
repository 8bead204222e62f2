import CubeQuery.Mdx.SetExpr

/-!
# Windows

An offset and a limit, applied to the text of a set or to a list of rows.
-/

namespace CubeQuery.Plan

structure Window where
  offset : Option Nat
  limit : Option Nat
deriving DecidableEq, Repr

namespace Window

def everything : Window := ⟨none, none⟩

def isEverything (w : Window) : Bool := w.offset.isNone && w.limit.isNone

def applyTo (w : Window) (set : Mdx.SetExpr) : Mdx.SetExpr :=
  if w.isEverything then set else .subset set (w.offset.getD 0) w.limit

/-- At most `limit` rows, all without a limit. -/
def takeLimit {α : Type} (limit : Option Nat) (rows : List α) : List α :=
  match limit with
  | some n => rows.take n
  | none => rows

def rows {α : Type} (w : Window) (rows : List α) : List α :=
  takeLimit w.limit (rows.drop (w.offset.getD 0))

def places (w : Window) (n : Nat) : List Nat :=
  let start := w.offset.getD 0
  List.range' start (min (w.limit.getD n) (n - start))

@[simp] theorem rows_everything {α : Type} (rows : List α) : everything.rows rows = rows := rfl

theorem take_range' (k start n : Nat) :
    (List.range' start n).take k = List.range' start (min k n) := by
  induction n generalizing k start with
  | zero => simp
  | succ n ih =>
    cases k with
    | zero => simp
    | succ k =>
      rw [List.range'_succ, List.take_succ_cons, ih, Nat.succ_min_succ, List.range'_succ]

theorem rows_range (w : Window) (n : Nat) : w.rows (List.range n) = w.places n := by
  have h : (List.range n).drop (w.offset.getD 0) =
      List.range' (w.offset.getD 0) (n - w.offset.getD 0) := by
    rw [List.range_eq_range', List.drop_range', Nat.zero_add, Nat.mul_one]
  cases hl : w.limit with
  | none => simp [rows, takeLimit, places, hl, h]
  | some k => simp [rows, takeLimit, places, hl, h, take_range']

end Window

end CubeQuery.Plan
