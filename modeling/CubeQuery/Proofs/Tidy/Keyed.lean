import CubeQuery.Output.Aggregation
import CubeQuery.Proofs.Tidy.Cells

/-!
# Dense and keyed cells

A result is shown through the cells of the members on its axes and through no others, so other cells do
as well exactly if they have the same values there (`CellResult.interchangeable_iff`). Dense cells may
be keyed unless a place that is too large for a word leads to another cell
(`keyed_interchangeable_iff`).
-/

namespace CubeQuery

namespace CellResult

def withCells (r : CellResult) (cells : CellData) : CellResult := { r with cells }

/-- The result shows the same with the other cells: the same tables or failures, the same nested cells
and the same aggregation. -/
structure Interchangeable (r : CellResult) (cells : CellData) : Prop where
  table : ∀ (cube : Cube) (options : Tidy.Options),
    Tidy.Table.ofResult (r.withCells cells) cube options = Tidy.Table.ofResult r cube options
  nested : (r.withCells cells).nested (·.json) = r.nested (·.json)
  aggregation : ∀ cube : Cube,
    Output.Aggregation.json (r.withCells cells) cube = Output.Aggregation.json r cube

/-- The other cells have the same values at the members of the axes. -/
def AgreesWith (r : CellResult) (cells : CellData) : Prop :=
  ∀ coordinates, List.Forall₂ (· < ·) coordinates r.shape →
    (r.withCells cells).cell coordinates = r.cell coordinates

end CellResult

/-! ## Nested cells -/

theorem nest_congr {leaf leaf' : List Nat → Json} {sizes suffix : List Nat}
    (h : ∀ path, List.Forall₂ (· < ·) path sizes →
      leaf (path.reverse ++ suffix) = leaf' (path.reverse ++ suffix)) :
    nest leaf sizes suffix = nest leaf' sizes suffix := by
  induction sizes generalizing suffix with
  | nil => simpa [nest] using h [] .nil
  | cons size sizes ih =>
      rw [nest, nest]
      congr 1
      refine List.map_congr_left fun i hi => ih fun path hpath => ?_
      have hleaf := h (i :: path) (.cons (List.mem_range.1 hi) hpath)
      simpa using hleaf

theorem CellResult.AgreesWith.nested_eq {r : CellResult} {cells : CellData}
    (h : r.AgreesWith cells) (leaf : Scalar → Json) :
    (r.withCells cells).nested leaf = r.nested leaf := by
  rw [CellResult.nested_eq, CellResult.nested_eq]
  refine nest_congr fun path hpath => ?_
  have hcoordinates : List.Forall₂ (· < ·) path.reverse r.shape := by
    rwa [← List.forall₂_reverse_iff, List.reverse_reverse]
  rw [List.append_nil, h _ hcoordinates]

/-! ## Tables -/

namespace Tidy

theorem lt_of_measure_mem_columns {r : CellResult} {cube : Cube} {options : Options}
    {cs : List Column} (h : columns r cube options = .ok cs) {ordinal : Nat} {title : String}
    (hmem : Column.measure ordinal title ∈ cs) : ordinal < r.measures.length := by
  cases of_mem_columns h hmem with
  | measure hordinal => exact hordinal

section Agreement

variable {r : CellResult} {cells : CellData}

theorem AgreesWith.measureCell_eq (h : r.AgreesWith cells) {ordinals : List Nat} {m : Nat}
    (hordinals : ordinals ∈ readings (rowShape r)) (hm : m < r.measures.length) :
    measureCell (r.withCells cells) ordinals m = measureCell r ordinals m := by
  have haxes : r.axes ≠ [] := by
    intro hnil
    simp [CellResult.measures, hnil] at hm
  apply h
  rw [shape_eq_cons haxes]
  exact .cons hm (mem_readings.1 hordinals)

theorem AgreesWith.isVacant_eq (h : r.AgreesWith cells) {ordinals : List Nat}
    (hordinals : ordinals ∈ readings (rowShape r)) :
    isVacant (r.withCells cells) ordinals = isVacant r ordinals := by
  have hvalues : (List.range r.measures.length).map (measureCell (r.withCells cells) ordinals) =
      (List.range r.measures.length).map (measureCell r ordinals) :=
    List.map_congr_left fun m hm => measureCell_eq h hordinals (List.mem_range.1 hm)
  have hmeasures : (r.withCells cells).measures = r.measures := rfl
  rw [isVacant, isVacant, hmeasures, hvalues]

theorem AgreesWith.shownOrdinals_eq (h : r.AgreesWith cells) (options : Options) :
    shownOrdinals (r.withCells cells) options = shownOrdinals r options := by
  refine List.filter_congr fun ordinals hordinals => ?_
  rw [isVacant_eq h (mem_of_mem_rows hordinals)]

theorem AgreesWith.columnRows_eq (h : r.AgreesWith cells) (options : Options) {cs : List Column}
    (hcs : ∀ ordinal title, Column.measure ordinal title ∈ cs → ordinal < r.measures.length) :
    columnRows (r.withCells cells) options cs = columnRows r options cs := by
  rw [columnRows, columnRows, shownOrdinals_eq h]
  refine List.map_congr_left fun ordinals hordinals => List.map_congr_left fun c hc => ?_
  cases c with
  | member axis aspect => rfl
  | measure ordinal title =>
      exact measureCell_eq h (mem_of_mem_rows (List.mem_filter.1 hordinals).1) (hcs ordinal title hc)

theorem AgreesWith.ofResult_eq (h : r.AgreesWith cells) (cube : Cube) (options : Options) :
    Table.ofResult (r.withCells cells) cube options = Table.ofResult r cube options := by
  have hcolumns : columns (r.withCells cells) cube options = columns r cube options := rfl
  rw [Table.ofResult, Table.ofResult, hcolumns]
  cases hcs : columns r cube options with
  | error e => rfl
  | ok cs =>
      have hrows := columnRows_eq h options fun _ _ => lt_of_measure_mem_columns hcs
      simp only [bind, Except.bind, rows_eq, hrows]
      rfl

end Agreement

end Tidy

theorem Scalar.json_inj {a b : Scalar} (h : a.json = b.json) : a = b := by
  cases a <;> cases b <;> simp_all [Scalar.json]

/-- Nothing but the cells in range is shown, and each of them is. -/
theorem CellResult.interchangeable_iff {r : CellResult} {cells : CellData} :
    r.Interchangeable cells ↔ r.AgreesWith cells := by
  constructor
  · intro h coordinates hrange
    have hcell := r.at?_nested (·.json) hrange
    have hother := (r.withCells cells).at?_nested (·.json) hrange
    rw [h.nested, hcell, Option.some.injEq] at hother
    exact (Scalar.json_inj hother).symm
  · intro h
    have hnested := h.nested_eq (·.json)
    refine ⟨fun cube options => Tidy.AgreesWith.ofResult_eq h cube options, hnested, fun cube => ?_⟩
    simp only [Output.Aggregation.json, hnested]
    rfl

/-! ## Dense places -/

/-- A place in range lies before the number of cells, with a stride to spare. -/
theorem offset_add_stride_le {shape coordinates : List Nat}
    (h : List.Forall₂ (· < ·) coordinates shape) (stride : Nat) :
    (List.zipWith (· * ·) coordinates (stridesFrom stride shape)).foldr (· + ·) 0 + stride ≤
      stride * shape.prod := by
  induction h generalizing stride with
  | nil => simp [stridesFrom]
  | @cons i size coordinates shape hi hrest ih =>
      have hinner := ih (stride * size)
      have hblock : (i + 1) * stride ≤ stride * size := by
        rw [Nat.mul_comm stride]
        exact Nat.mul_le_mul_right _ hi
      rw [Nat.add_mul, Nat.one_mul] at hblock
      rw [stridesFrom, List.zipWith_cons_cons, List.foldr_cons, List.prod_cons, ← Nat.mul_assoc]
      omega

theorem denseOffset_lt {shape coordinates : List Nat}
    (h : List.Forall₂ (· < ·) coordinates shape) : denseOffset shape coordinates < shape.prod := by
  have hbound := offset_add_stride_le h 1
  rw [Nat.one_mul] at hbound
  exact hbound

/-- In range of no more cells than words, a place is the offset itself. -/
theorem densePlace_eq_denseOffset {shape coordinates : List Nat}
    (h : List.Forall₂ (· < ·) coordinates shape) (hcount : shape.prod ≤ UInt64.size) :
    densePlace shape coordinates = denseOffset shape coordinates :=
  Nat.mod_eq_of_lt ((denseOffset_lt h).trans_le hcount)

theorem eq_origin_of_offset_eq_zero {shape coordinates : List Nat}
    (h : List.Forall₂ (· < ·) coordinates shape) {stride : Nat} (hstride : 0 < stride)
    (hzero : (List.zipWith (· * ·) coordinates (stridesFrom stride shape)).foldr (· + ·) 0 = 0) :
    coordinates = origin shape := by
  induction h generalizing stride with
  | nil => rfl
  | @cons i size coordinates shape hi hrest ih =>
      rw [stridesFrom, List.zipWith_cons_cons, List.foldr_cons, Nat.add_eq_zero_iff,
        Nat.mul_eq_zero] at hzero
      obtain ⟨hfirst, hothers⟩ := hzero
      have hi0 : i = 0 := hfirst.resolve_right (by omega)
      rw [ih (Nat.mul_pos hstride (by omega)) hothers, hi0]
      rfl

/-! ## Dense cells in keyed form -/

/-- Keyed cells that have the values of dense ones: each lies in range and has the value at its place,
and of the places in range none is left out that has a value other than null. -/
structure KeyedForm (shape : List Nat) (values : List Scalar) (cells : List KeyedCell) : Prop where
  in_range : ∀ c ∈ cells, List.Forall₂ (· < ·) c.coordinates shape
  value_eq : ∀ c ∈ cells, values[denseOffset shape c.coordinates]? = some c.value
  complete : ∀ coordinates value, List.Forall₂ (· < ·) coordinates shape →
    values[denseOffset shape coordinates]? = some value → value ≠ .null →
    ⟨coordinates, value⟩ ∈ cells

theorem KeyedForm.keyedValue_eq {shape : List Nat} {values : List Scalar} {cells : List KeyedCell}
    (h : KeyedForm shape values cells) {coordinates : List Nat}
    (hrange : List.Forall₂ (· < ·) coordinates shape) :
    keyedValue cells coordinates = values.getD (denseOffset shape coordinates) .null := by
  rw [keyedValue, List.getD_eq_getElem?_getD]
  cases hfind : cells.reverse.find? (·.coordinates == coordinates) with
  | some c =>
      have hc : c ∈ cells := List.mem_reverse.1 (List.mem_of_find?_eq_some hfind)
      have hcoordinates : c.coordinates = coordinates := by simpa using List.find?_some hfind
      rw [← hcoordinates, h.value_eq c hc]
      rfl
  | none =>
      -- A value that is not listed is null, as is one behind the last.
      cases hvalue : values[denseOffset shape coordinates]? with
      | none => rfl
      | some value =>
          by_cases hnull : value = .null
          · rw [hnull]
            rfl
          · have hmem := List.mem_reverse.2 (h.complete coordinates value hrange hvalue hnull)
            exact absurd (List.find?_eq_none.1 hfind _ hmem) (by simp)

/-- No dense cell in range gets another value because its place is counted in words. -/
def PlacesKept (shape : List Nat) (values : List Scalar) : Prop :=
  ∀ coordinates, List.Forall₂ (· < ·) coordinates shape →
    values.getD (densePlace shape coordinates) .null =
      values.getD (denseOffset shape coordinates) .null

theorem placesKept_of_prod_le {shape : List Nat} (h : shape.prod ≤ UInt64.size)
    (values : List Scalar) : PlacesKept shape values := by
  intro coordinates hrange
  rw [densePlace_eq_denseOffset hrange h]

theorem KeyedForm.agreesWith_iff {r : CellResult} {values : List Scalar} {cells : List KeyedCell}
    (hdense : r.cells = .dense values) (h : KeyedForm r.shape values cells) :
    r.AgreesWith (.keyed cells) ↔ PlacesKept r.shape values := by
  refine forall_congr' fun coordinates => forall_congr' fun hrange => ?_
  have hkeyed : (r.withCells (.keyed cells)).cell coordinates = keyedValue cells coordinates := rfl
  rw [hkeyed, h.keyedValue_eq hrange, CellResult.cell, hdense, eq_comm]

/-- Dense cells and a keyed form of them, in whatever order and with or without its nulls, are
interchangeable exactly if no cell in range gets another value because places are counted in words. Of
up to 2 ^ 64 cells none does. -/
theorem keyed_interchangeable_iff (r : CellResult) (values : List Scalar)
    (hdense : r.cells = .dense values) (cells : List KeyedCell)
    (hcells : KeyedForm r.shape values cells) :
    (r.Interchangeable (.keyed cells) ↔ PlacesKept r.shape values) ∧
      (r.shape.prod ≤ UInt64.size → r.Interchangeable (.keyed cells)) := by
  have hiff : r.Interchangeable (.keyed cells) ↔ PlacesKept r.shape values :=
    CellResult.interchangeable_iff.trans (hcells.agreesWith_iff hdense)
  exact ⟨hiff, fun hcount => hiff.2 (placesKept_of_prod_le hcount values)⟩

/-- Two measures over three members, with a null and without the values of the last member; keyed, the
cells are listed backwards and the null is left out. -/
theorem keyed_interchangeable_iff_short :
    let axis (names : List String) := ResultAxis.ofMembers (names.map fun n => Member.ofMeasure n n n)
    let r : CellResult := ⟨[axis ["units", "sales"], axis ["a", "b", "c"]],
      .dense [.int 3, .null, .int 5, .int 7], none⟩
    let cells : List KeyedCell := [⟨[1, 1], .int 7⟩, ⟨[0, 1], .int 5⟩, ⟨[0, 0], .int 3⟩]
    KeyedForm r.shape [.int 3, .null, .int 5, .int 7] cells ∧
      (r.withCells (.keyed cells)).nested (·.json) =
        .arr [.arr [.int 3, .null], .arr [.int 5, .int 7], .arr [.null, .null]] ∧
      r.Interchangeable (.keyed cells) := by
  intro axis r cells
  have hcells : KeyedForm r.shape [.int 3, .null, .int 5, .int 7] cells := by
    constructor
    · intro c hc
      rw [← mem_readings]
      revert c
      decide
    · decide
    · intro coordinates value hrange hvalue hnull
      have hall : ∀ coordinates ∈ readings r.shape, ∀ value,
          ([.int 3, .null, .int 5, .int 7] : List Scalar)[denseOffset r.shape coordinates]? =
            some value → value = .null ∨ (⟨coordinates, value⟩ : KeyedCell) ∈ cells := by
        decide
      exact (hall coordinates (mem_readings.2 hrange) value hvalue).resolve_left hnull
  have hsame := (keyed_interchangeable_iff r _ rfl cells hcells).2 (by decide)
  refine ⟨hcells, ?_, hsame⟩
  rw [hsame.nested]
  rfl

/-- One measure over 32 axes of four members and one of two. -/
def wideAxes : List ResultAxis :=
  let axis (size : Nat) := ResultAxis.ofMembers ((List.range size).map fun i =>
    let name := Decimal.natText i
    Member.ofMeasure name name name)
  axis 1 :: (List.replicate 32 (axis 4) ++ [axis 2])

/-- Of twice 2 ^ 64 cells the first alone has a value. Dense, it is also the value of the second row,
the place of which is 2 ^ 64; keyed, that row is null. -/
theorem not_interchangeable_of_wide_result :
    let r : CellResult := ⟨wideAxes, .dense [.int 5], none⟩
    let cells : List KeyedCell := [⟨List.replicate 34 0, .int 5⟩]
    let cube : Cube := ⟨"Sales", .empty, [], [], []⟩
    let options : Tidy.Options := ⟨false, false, [], ⟨[]⟩, false, ⟨none, some 2⟩⟩
    KeyedForm r.shape [.int 5] cells ∧
      ((Tidy.Table.ofResult r cube options).toOption.map fun t => t.rows.map (·.getLast?)) =
        some [some (.int 5), some (.int 5)] ∧
      ((Tidy.Table.ofResult (r.withCells (.keyed cells)) cube options).toOption.map
        fun t => t.rows.map (·.getLast?)) = some [some (.int 5), some .null] ∧
      ¬ r.Interchangeable (.keyed cells) := by
  intro r cells cube options
  have hcells : KeyedForm r.shape [.int 5] cells := by
    constructor
    · decide
    · decide
    · intro coordinates value hrange hvalue _
      obtain ⟨hplace, hvalue⟩ := List.getElem?_eq_some_iff.1 hvalue
      have hzero : denseOffset r.shape coordinates = 0 := by simpa using hplace
      rw [eq_origin_of_offset_eq_zero hrange Nat.one_pos hzero]
      simp only [hzero, List.getElem_cons_zero] at hvalue
      subst hvalue
      decide
  have hrow : ((Tidy.Table.ofResult r cube options).toOption.map fun t => t.rows.map (·.getLast?)) =
      some [some (.int 5), some (.int 5)] := by
    decide +kernel
  have hkeyedRow : ((Tidy.Table.ofResult (r.withCells (.keyed cells)) cube options).toOption.map
      fun t => t.rows.map (·.getLast?)) = some [some (.int 5), some .null] := by
    simp only [Tidy.Table.ofResult, Tidy.rows_eq]
    decide +kernel
  refine ⟨hcells, hrow, hkeyedRow, fun h => ?_⟩
  rw [h.table, hrow] at hkeyedRow
  exact absurd hkeyedRow (by decide)

end CubeQuery
