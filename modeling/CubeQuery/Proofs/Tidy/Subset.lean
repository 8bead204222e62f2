import CubeQuery.Proofs.Tidy.Keyed

/-!
# Subsets of an axis

A window on the rows of a result with one drilldown axis, and the result that holds only the members of
that axis which the window shows, each with its cells. Both give the same table
(`CellResult.IsSubset.ofResult_eq`).
-/

namespace CubeQuery

/-- A result holds the members of the only drilldown axis of another that a window shows, each with its
cells. -/
structure CellResult.IsSubset (shown r : CellResult) (w : Plan.Window) (measures axis : ResultAxis) :
    Prop where
  axes : r.axes = [measures, axis]
  shownAxes : shown.axes = [measures, { axis with members := w.rows axis.members }]
  cells : ∀ m < measures.members.length, ∀ i < (w.rows axis.members).length,
    shown.cell [m, i] = r.cell [m, w.offset.getD 0 + i]
  mdx : shown.mdx = r.mdx

/-! ## Rows in a window -/

namespace Plan.Window

variable {α β : Type} (w : Window)

theorem rows_map (f : α → β) (rows : List α) : w.rows (rows.map f) = (w.rows rows).map f := by
  rw [Window.rows, Window.rows, ← List.map_drop]
  cases w.limit <;> simp [takeLimit]

theorem length_rows (rows : List α) :
    (w.rows rows).length = min (w.limit.getD rows.length) (rows.length - w.offset.getD 0) := by
  rw [Window.rows]
  cases w.limit <;> simp [takeLimit]

theorem getElem?_rows {rows : List α} {i : Nat} (h : i < (w.rows rows).length) :
    (w.rows rows)[i]? = rows[w.offset.getD 0 + i]? := by
  rw [length_rows] at h
  rw [Window.rows]
  cases hlimit : w.limit with
  | none => rw [takeLimit, List.getElem?_drop]
  | some n =>
      rw [hlimit, Option.getD_some] at h
      rw [takeLimit, List.getElem?_take_of_lt (by omega), List.getElem?_drop]

/-- The places that a window shows, counted from the first one shown. -/
theorem rows_range_eq_map (n : Nat) :
    w.rows (List.range n) =
      (List.range (w.rows (List.range n)).length).map (w.offset.getD 0 + ·) := by
  rw [rows_range, places, List.length_range', ← List.range'_eq_map_range]

end Plan.Window

open Tidy

theorem readings_singleton (n : Nat) : readings [n] = (List.range n).map fun i => [i] := by
  rw [List.map_eq_flatMap]
  simp [readings]

/-- An axis with a level that the cube knows has the same columns whatever its members are. -/
theorem shownDepths_of_level {cube : Cube} {ref : LevelRef} {level : ResolvedLevel}
    (href : axis.level = some ref) (hlevel : cube.level? ref = some level) (parents : Bool)
    (position : Nat) (members : List Member) :
    shownDepths cube parents position { axis with members } = shownDepths cube parents position axis := by
  have hother : ({ axis with members } : ResultAxis).effectiveLevel?.bind cube.level? = some level := by
    simp [ResultAxis.effectiveLevel?, href, hlevel]
  have hown : axis.effectiveLevel?.bind cube.level? = some level := by
    simp [ResultAxis.effectiveLevel?, href, hlevel]
  simp only [shownDepths, hother, hown]

namespace CellResult

variable {shown r : CellResult} {w : Plan.Window} {measures axis : ResultAxis}

theorem IsSubset.measures_eq (h : shown.IsSubset r w measures axis) :
    shown.measures = r.measures := by
  rw [CellResult.measures, CellResult.measures, h.axes, h.shownAxes]
  rfl

theorem IsSubset.drilldownAxes_eq (h : shown.IsSubset r w measures axis) :
    r.drilldownAxes = [axis] ∧
      shown.drilldownAxes = [{ axis with members := w.rows axis.members }] := by
  rw [CellResult.drilldownAxes, CellResult.drilldownAxes, h.axes, h.shownAxes]
  exact ⟨rfl, rfl⟩

/-! ## Columns -/

theorem IsSubset.columns_eq (h : shown.IsSubset r w measures axis) {cube : Cube} {ref : LevelRef}
    {level : ResolvedLevel} (href : axis.level = some ref) (hlevel : cube.level? ref = some level)
    (options : Options) : columns shown cube options = columns r cube options := by
  obtain ⟨haxes, hshown⟩ := h.drilldownAxes_eq
  have hproperty : propertyColumn [{ axis with members := w.rows axis.members }] =
      propertyColumn [axis] := by
    funext spec
    have heffective : ({ axis with members := w.rows axis.members } : ResultAxis).effectiveLevel? =
        axis.effectiveLevel? := by
      simp [ResultAxis.effectiveLevel?, href]
    simp only [propertyColumn, List.findIdx?_cons, heffective]
  simp only [columns, hproperty, h.measures_eq, haxes, hshown, allAxisColumns, axisColumns,
    shownDepths_of_level href hlevel]

/-! ## Rows -/

/-- A row of the subset shows what the row of the same member shows. -/
theorem IsSubset.value_eq (h : shown.IsSubset r w measures axis) (captions : CaptionOverrides)
    {i : Nat} (hi : i < (w.rows axis.members).length) {c : Column} (hc : c.IsOf r) :
    c.value shown captions [i] = c.value r captions [w.offset.getD 0 + i] := by
  cases hc with
  | @measure ordinal title hordinal =>
      rw [CellResult.measures, h.axes] at hordinal
      exact h.cells ordinal hordinal i hi
  | @member position _ aspect =>
      obtain ⟨haxes, hshown⟩ := h.drilldownAxes_eq
      cases position with
      | succ position => simp [Column.value, rowMember?, haxes, hshown]
      | zero =>
          simp only [Column.value, rowMember?, haxes, hshown, List.getElem?_cons_zero, bind,
            Option.bind_some, w.getElem?_rows hi]
          cases axis.members[w.offset.getD 0 + i]? <;> rfl

theorem IsSubset.isVacant_eq (h : shown.IsSubset r w measures axis) {i : Nat}
    (hi : i < (w.rows axis.members).length) :
    isVacant shown [i] = isVacant r [w.offset.getD 0 + i] := by
  have hvalues : (List.range r.measures.length).map (measureCell shown [i]) =
      (List.range r.measures.length).map (measureCell r [w.offset.getD 0 + i]) := by
    refine List.map_congr_left fun m hm => h.cells m ?_ i hi
    rw [List.mem_range, CellResult.measures, h.axes] at hm
    exact hm
  rw [isVacant, isVacant, h.measures_eq, hvalues]

/-- The rows of the subset are those in the window, counted from the first one shown. -/
theorem IsSubset.shownOrdinals_eq (h : shown.IsSubset r w measures axis) (options : Options) :
    shownOrdinals r { options with window := w } =
      (shownOrdinals shown { options with window := .everything }).map
        (·.map (w.offset.getD 0 + ·)) := by
  obtain ⟨haxes, hshown⟩ := h.drilldownAxes_eq
  have hlength : (w.rows (List.range axis.members.length)).length = (w.rows axis.members).length := by
    rw [w.length_rows, w.length_rows, List.length_range]
  simp only [shownOrdinals, rowShape, haxes, hshown, List.map_cons, List.map_nil, readings_singleton,
    Plan.Window.rows_everything, w.rows_map]
  rw [w.rows_range_eq_map, hlength, List.map_map, List.filter_map, List.filter_map, List.map_map]
  -- Empty rows are dropped after the window has been cut, in both results the same ones.
  have hfilter : (List.range (w.rows axis.members).length).filter
        ((fun ordinals => !(options.sparse && isVacant r ordinals)) ∘
          (fun i => [i]) ∘ (w.offset.getD 0 + ·)) =
      (List.range (w.rows axis.members).length).filter
        ((fun ordinals => !(options.sparse && isVacant shown ordinals)) ∘ fun i => [i]) := by
    refine List.filter_congr fun i hi => ?_
    simp only [Function.comp_apply, h.isVacant_eq (List.mem_range.1 hi)]
  rw [hfilter]
  rfl

theorem IsSubset.columnRows_eq (h : shown.IsSubset r w measures axis) (options : Options)
    {cs : List Column} (hcs : ∀ c ∈ cs, c.IsOf r) :
    columnRows shown { options with window := .everything } cs =
      columnRows r { options with window := w } cs := by
  rw [columnRows, columnRows, h.shownOrdinals_eq, List.map_map]
  refine List.map_congr_left fun ordinals hordinals => List.map_congr_left fun c hc => ?_
  have hreading := mem_of_mem_rows (List.mem_filter.1 hordinals).1
  rw [rowShape, h.drilldownAxes_eq.2, List.map_singleton, readings_singleton,
    List.mem_map] at hreading
  obtain ⟨i, hi, rfl⟩ := hreading
  exact h.value_eq options.captions (List.mem_range.1 hi) (hcs c hc)

/-- Where the level of the only drilldown axis is known, the table of its subset is the table in the
window, or fails as that one does. -/
theorem IsSubset.ofResult_eq (h : shown.IsSubset r w measures axis) {cube : Cube} {ref : LevelRef}
    {level : ResolvedLevel} (href : axis.level = some ref) (hlevel : cube.level? ref = some level)
    (options : Options) :
    Table.ofResult shown cube { options with window := .everything } =
      Table.ofResult r cube { options with window := w } := by
  have hcolumns : columns shown cube { options with window := .everything } =
      columns r cube { options with window := w } := h.columns_eq href hlevel _
  rw [Table.ofResult, Table.ofResult, hcolumns]
  cases hcs : columns r cube { options with window := w } with
  | error e => rfl
  | ok cs =>
      have hrows := h.columnRows_eq options fun _ => of_mem_columns hcs
      simp only [bind, Except.bind, rows_eq, hrows, h.mdx]

end CellResult

/-! ## The subset that an engine answers with -/

/-- The cell at its place in a subset of the second of two axes, if its member is shown. -/
def KeyedCell.subset? (start count : Nat) (c : KeyedCell) : Option KeyedCell :=
  match c.coordinates with
  | [m, i] => if start ≤ i ∧ i < start + count then some ⟨[m, i - start], c.value⟩ else none
  | _ => none

/-- The cells of `count` members of the second of two axes, from the member at `start` on. -/
def CellData.subset (measures start count : Nat) : CellData → CellData
  | .dense values => .dense ((values.drop (measures * start)).take (measures * count))
  | .keyed cells => .keyed (cells.filterMap (KeyedCell.subset? start count))

def CellResult.subset (r : CellResult) (w : Plan.Window) : CellResult :=
  match r.axes with
  | [measures, axis] =>
    { r with
      axes := [measures, { axis with members := w.rows axis.members }]
      cells := r.cells.subset measures.members.length (w.offset.getD 0) (w.rows axis.members).length }
  | _ => r

theorem KeyedCell.subset?_any {start count m i : Nat} (hi : i < count) (c : KeyedCell) :
    (c.subset? start count).any (·.coordinates == [m, i]) = (c.coordinates == [m, start + i]) := by
  obtain ⟨coordinates, value⟩ := c
  rcases coordinates with _ | ⟨a, _ | ⟨b, _ | ⟨d, rest⟩⟩⟩
  · rfl
  · simp [subset?]
  · by_cases hb : start ≤ b ∧ b < start + count
    · have hplace : (b - start == i) = (b == start + i) := by
        rw [Bool.eq_iff_iff, beq_iff_eq, beq_iff_eq]
        omega
      simp [subset?, hb, hplace]
    · have hne : b ≠ start + i := by omega
      simp [subset?, hb, hne]
  · simp [subset?]

theorem keyedValue_subset (cells : List KeyedCell) (start : Nat) {count i : Nat} (hi : i < count)
    (m : Nat) : keyedValue (cells.filterMap (KeyedCell.subset? start count)) [m, i] =
      keyedValue cells [m, start + i] := by
  rw [keyedValue, keyedValue, ← List.filterMap_reverse, List.find?_filterMap]
  simp only [KeyedCell.subset?_any hi]
  cases hfound : cells.reverse.find? (·.coordinates == [m, start + i]) with
  | none => rfl
  | some c =>
      have hc : c.coordinates = [m, start + i] := by simpa using List.find?_some hfound
      have hshown : start ≤ start + i ∧ start + i < start + count := by omega
      simp [KeyedCell.subset?, hc, hshown]

theorem densePlace_pair {measures members m i : Nat} (hm : m < measures) (hi : i < members)
    (hplaces : measures * members ≤ UInt64.size) :
    densePlace [measures, members] [m, i] = m + measures * i := by
  have hlast : measures * (i + 1) ≤ measures * members := Nat.mul_le_mul_left _ hi
  rw [Nat.mul_succ] at hlast
  have hoffset : denseOffset [measures, members] [m, i] = m + measures * i := by
    simp [denseOffset, strides, stridesFrom, Nat.mul_comm]
  rw [densePlace, hoffset, Nat.mod_eq_of_lt (by omega)]

/-- If its cells have places within a word, the result with the shown members has their cells. -/
theorem isSubset_subset {r : CellResult} {measures axis : ResultAxis} (w : Plan.Window)
    (haxes : r.axes = [measures, axis])
    (hplaces : measures.members.length * axis.members.length ≤ UInt64.size) :
    (r.subset w).IsSubset r w measures axis := by
  have hsubset : r.subset w = { r with
      axes := [measures, { axis with members := w.rows axis.members }]
      cells := r.cells.subset measures.members.length (w.offset.getD 0)
        (w.rows axis.members).length } := by
    rw [CellResult.subset, haxes]
  refine ⟨haxes, by rw [hsubset], fun m hm i hi => ?_, by rw [hsubset]⟩
  have hcount := w.length_rows axis.members
  have hshape : r.shape = [measures.members.length, axis.members.length] := by
    simp [CellResult.shape, haxes]
  rw [hsubset, CellResult.cell, CellResult.cell, hshape]
  cases r.cells with
  | keyed cells => exact keyedValue_subset cells _ hi m
  | dense values =>
      have hshown : measures.members.length * (w.rows axis.members).length ≤ UInt64.size :=
        (Nat.mul_le_mul_left _ (by omega)).trans hplaces
      have hlast : measures.members.length * (i + 1) ≤
          measures.members.length * (w.rows axis.members).length := Nat.mul_le_mul_left _ hi
      rw [Nat.mul_succ] at hlast
      have hplace : densePlace [measures.members.length, (w.rows axis.members).length] [m, i] =
          m + measures.members.length * i := densePlace_pair hm hi hshown
      have hwhole := densePlace_pair hm (show w.offset.getD 0 + i < axis.members.length by omega) hplaces
      simp only [CellData.subset, CellResult.shape, List.map_cons, List.map_nil, hplace, hwhole,
        List.getD_eq_getElem?_getD]
      rw [List.getElem?_take_of_lt (by omega), List.getElem?_drop, Nat.mul_add]
      congr 2
      omega

end CubeQuery
