import CubeQuery.Result.CellIndex
import CubeQuery.Tidy.Column

/-!
# Rows in turn

The rows of a table without those that are not shown. The values of a column are laid out by the
members of its axis first, and an odometer gives the ordinals of one row after another. The rows are
those that the columns describe (`rows_eq`).
-/

namespace CubeQuery.Tidy

def lineages (a : ResultAxis) : List (Member × List Member) :=
  let parents := a.parents.table
  a.members.map fun m => (m, (m.parentName.bind (parents[·]?)).getD [])

/-- The values of a column by the ordinals of an axis, or the cells of a measure. -/
inductive Lane where
  | member (axis : Nat) (values : Array Scalar)
  | measure (ordinal : Nat)

def Column.lane (families : List (List (Member × List Member))) (captions : CaptionOverrides) :
    Column → Lane
  | .member axis aspect =>
    .member axis (((families[axis]?).getD []).map fun (m, ancestors) =>
      aspect.of captions m ancestors).toArray
  | .measure ordinal _ => .measure ordinal

def Lane.value (cells : CellIndex) (ordinals : List Nat) : Lane → Scalar
  | .member axis values => ((ordinals[axis]?).bind (values[·]?)).getD .null
  | .measure ordinal => cells.get (ordinal :: ordinals)

def isVacantIn (cells : CellIndex) (measures : Nat) (ordinals : List Nat) : Bool :=
  measures != 0 && (List.range measures).all fun m => (cells.get (m :: ordinals)).isNull

/-- What `f` makes of the tuples of a shape that a window shows. -/
def showTuples {α : Type} (w : Plan.Window) (shape : List Nat) (f : List Nat → Option α) : List α :=
  ((Odometer.ofShape shape).skip (w.offset.getD 0)).collect f (w.limit.getD (readingCount shape)) []

def rows (r : CellResult) (options : Options) (columns : List Column) : List (List Scalar) :=
  let cells := r.index
  let lanes := columns.map (Column.lane (r.drilldownAxes.map lineages) options.captions)
  let measures := r.measures.length
  showTuples options.window (rowShape r) fun ordinals =>
    if options.sparse && isVacantIn cells measures ordinals then none
    else some (lanes.map (Lane.value cells ordinals))

/-! ## The rows that the columns describe -/

theorem lineages_eq (a : ResultAxis) :
    lineages a = a.members.map fun m => (m, a.ancestorsOf m) := by
  simp [lineages, ResultAxis.ancestorsOf, NameMap.getElem?_table]

theorem value_lane (r : CellResult) (captions : CaptionOverrides) (ordinals : List Nat)
    (c : Column) :
    (c.lane (r.drilldownAxes.map lineages) captions).value r.index ordinals =
      c.value r captions ordinals := by
  cases c with
  | measure ordinal title => exact CellIndex.get_index r _
  | member axis aspect =>
    simp only [Column.lane, Lane.value, Column.value, rowMember?, List.getElem?_map]
    cases r.drilldownAxes[axis]? with
    | none => cases ordinals[axis]? <;> simp
    | some a =>
      cases ordinals[axis]? with
      | none => simp
      | some ordinal => cases h : a.members[ordinal]? <;> simp [lineages_eq, h]

theorem isVacantIn_index (r : CellResult) (ordinals : List Nat) :
    isVacantIn r.index r.measures.length ordinals = isVacant r ordinals := by
  cases h : r.measures.length <;>
    simp [isVacantIn, isVacant, measureCell, CellIndex.get_index, h, Function.comp_def,
      List.range_succ]

theorem filterMap_ite {α β : Type} (p : α → Bool) (f : α → β) (l : List α) :
    (l.filterMap fun a => if p a then none else some (f a)) = (l.filter fun a => !p a).map f := by
  induction l with
  | nil => rfl
  | cons a l ih => cases h : p a <;> simp [h, ih]

theorem showTuples_eq {α : Type} (w : Plan.Window) (shape : List Nat) (f : List Nat → Option α) :
    showTuples w shape f = (w.rows (readings shape)).filterMap f := by
  have hlists := (Odometer.lists_ofShape shape).skip (w.offset.getD 0)
  rw [showTuples, hlists.collect, List.reverse_nil, List.nil_append, Plan.Window.rows]
  cases w.limit with
  | some n => rfl
  | none =>
    have hlength : ((readings shape).drop (w.offset.getD 0)).length ≤ readingCount shape := by
      rw [List.length_drop, length_readings]
      omega
    rw [Option.getD_none, List.take_of_length_le hlength, Plan.Window.takeLimit]

theorem rows_eq (r : CellResult) (options : Options) (columns : List Column) :
    rows r options columns = columnRows r options columns := by
  simp only [rows, showTuples_eq, columnRows, shownOrdinals, isVacantIn_index, List.map_map,
    Function.comp_def, value_lane, filterMap_ite]

end CubeQuery.Tidy
