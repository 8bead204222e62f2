import CubeQuery.Proofs.Tidy.Subset
import CubeQuery.Proofs.Tidy.TwoPasses

/-!
# Rows that are left

A table may show a window of its rows and may leave vacant rows out. The window counts the rows of the
whole table, and only of those in it the vacant ones are dropped (`rows_windowed_then_sparse`).
-/

namespace CubeQuery

theorem Plan.Window.rows_eq_take {α : Type} (w : Plan.Window) (rows : List α) :
    w.rows rows = (rows.drop (w.offset.getD 0)).take
      (w.limit.getD (rows.drop (w.offset.getD 0)).length) := by
  unfold Plan.Window.rows
  cases w.limit with
  | none => rw [Option.getD_none, List.take_length, takeLimit]
  | some n => rfl

namespace Tidy

/-! ## Measure columns of a row -/

/-- The values of a row in the measure columns, which come last. -/
def measureValues (r : CellResult) (row : List Scalar) : List Scalar :=
  row.drop (row.length - r.measures.length)

/-- The rows from an offset on, at most as many as a limit allows; where vacant rows are not wanted, only
those of them with a measure that is not null. -/
def rowsLeft (r : CellResult) (offset limit : Option Nat) (sparse : Bool) (rows : List (List Scalar)) :
    List (List Scalar) :=
  let later := rows.drop (offset.getD 0)
  (later.take (limit.getD later.length)).filter fun row =>
    !(sparse && (measureValues r row).all (·.isNull))

variable {r : CellResult} {cube : Cube} {options : Options} {cs : List Column}

theorem drop_columns (h : columns r cube options = .ok cs) :
    cs.drop (cs.length - r.measures.length) = measureColumns 0 r.measures := by
  obtain ⟨others, rfl⟩ := columns_eq_append h
  have hlength : (others ++ measureColumns 0 r.measures).length - r.measures.length =
      others.length := by
    rw [List.length_append, length_measureColumns, Nat.add_sub_cancel]
  rw [hlength, List.drop_left]

theorem measureValues_map (h : columns r cube options = .ok cs) (captions : CaptionOverrides)
    (ordinals : List Nat) :
    measureValues r (cs.map (Column.value r captions ordinals)) =
      (List.range r.measures.length).map (measureCell r ordinals) := by
  unfold measureValues
  rw [List.length_map, ← List.map_drop, drop_columns h, measureColumns_eq]
  apply List.ext_getElem
  · simp
  · intro i _ _
    simp [Column.value]

/-- A row is vacant when its measure columns are all null. -/
theorem all_measureValues (h : columns r cube options = .ok cs) (hmeasures : r.measures ≠ [])
    (captions : CaptionOverrides) (ordinals : List Nat) :
    (measureValues r (cs.map (Column.value r captions ordinals))).all (·.isNull) =
      isVacant r ordinals := by
  have hsome : r.measures.length ≠ 0 := by simpa using hmeasures
  have hvalues : (List.range r.measures.length).map (measureCell r ordinals) ≠ [] := by
    simpa using hsome
  rw [measureValues_map h, isVacant, List.isEmpty_eq_false_iff.2 hvalues, Bool.not_false,
    Bool.true_and]

/-! ## Rows of a table -/

theorem columnRows_eq_rowsLeft (h : columns r cube options = .ok cs) (hmeasures : r.measures ≠ [])
    (window : Plan.Window) (sparse : Bool) :
    columnRows r { options with window, sparse } cs =
      rowsLeft r window.offset window.limit sparse
        (columnRows r { options with window := .everything, sparse := false } cs) := by
  have hall : columnRows r { options with window := .everything, sparse := false } cs =
      (readings (rowShape r)).map fun ordinals => cs.map (Column.value r options.captions ordinals) := by
    unfold columnRows
    rw [shownOrdinals_eq_readings r rfl rfl]
  unfold rowsLeft
  dsimp only
  -- Windows and filters pass through the map that makes rows of ordinals.
  rw [hall, ← window.rows_eq_take, window.rows_map, List.filter_map]
  simp only [Function.comp_def, all_measureValues h hmeasures]
  rfl

/-- The table of a window is the whole table without the rows before its offset and beyond its limit, and
without those of the others that are vacant if vacant rows are not wanted. Whether there is a table, its
header and its text do not hang on either. -/
theorem rows_windowed_then_sparse (r : CellResult) (cube : Cube) (options : Options) (t : Table)
    (hmeasures : r.measures ≠ []) (h : Table.ofResult r cube options = .ok t) :
    ∃ whole, Table.ofResult r cube { options with window := .everything, sparse := false } = .ok whole ∧
      whole.rows.length = (rowShape r).prod ∧
      (∀ row ∈ whole.rows, row.length = whole.header.length) ∧
      whole.header.drop (whole.header.length - r.measures.length) = r.measures.map (·.caption) ∧
      t.rows = rowsLeft r options.window.offset options.window.limit options.sparse whole.rows ∧
      t.header = whole.header ∧ t.mdx = whole.mdx ∧
      ∀ window sparse, Table.ofResult r cube { options with window, sparse } =
        .ok { t with rows := rowsLeft r window.offset window.limit sparse whole.rows } := by
  obtain ⟨cs, hcs, rfl⟩ := ofResult_eq_ok.1 h
  have hrows := columnRows_eq_rowsLeft hcs hmeasures
  have hwhole := ofResult_eq_ok.2
    ⟨cs, show columns r cube { options with window := .everything, sparse := false } = .ok cs from hcs, rfl⟩
  refine ⟨_, hwhole, ?_, ?_, ?_, hrows options.window options.sparse, rfl, rfl, ?_⟩
  · rw [columnRows, shownOrdinals_eq_readings r rfl rfl, List.length_map, length_readings,
      readingCount_eq_prod]
  · intro row hrow
    obtain ⟨ordinals, -, rfl⟩ := List.mem_map.1 hrow
    rw [List.length_map, List.length_map]
  · rw [List.length_map, ← List.map_drop, drop_columns hcs, map_title_measureColumns]
  · intro window sparse
    apply ofResult_eq_ok.2
    exact ⟨cs, hcs, by rw [hrows window sparse]⟩

/-- Of the second and the third of four rows the third is vacant, so that one row is left. -/
theorem rows_windowed_then_sparse_hole :
    let axis (names : List String) := ResultAxis.ofMembers (names.map fun n => Member.ofMeasure n n n)
    let r : CellResult := ⟨[axis ["units"], axis ["1997", "1998"], axis ["a", "b"]],
      .dense [.int 1, .null, .int 3, .int 4], none⟩
    let cube : Cube := ⟨"Sales", .empty, [], [], []⟩
    let options : Options := ⟨false, false, [], ⟨[]⟩, true, ⟨some 1, some 2⟩⟩
    ∃ t whole, r.measures ≠ [] ∧ Table.ofResult r cube options = .ok t ∧
      Table.ofResult r cube { options with window := .everything, sparse := false } = .ok whole ∧
      whole.rows.length = 4 ∧ t.rows = rowsLeft r (some 1) (some 2) true whole.rows ∧
      t.rows = [[.text "1997", .text "1997", .text "b", .text "b", .int 3]] := by
  intro axis r cube options
  have hcompute : ((columns r cube options).toOption.any fun cs =>
      decide (columnRows r options cs =
        [[.text "1997", .text "1997", .text "b", .text "b", .int 3]])) = true := by
    decide +kernel
  simp only [Option.any_eq_true, toOption_eq_some_iff, decide_eq_true_eq] at hcompute
  obtain ⟨cs, hcs, hrows⟩ := hcompute
  have hmeasures : r.measures ≠ [] := by simp [r, axis, CellResult.measures, ResultAxis.ofMembers]
  have htable := ofResult_eq_ok.2 ⟨cs, hcs, rfl⟩
  obtain ⟨whole, hwhole, hlength, -, -, hleft, -⟩ :=
    rows_windowed_then_sparse r cube options _ hmeasures htable
  exact ⟨_, whole, hmeasures, htable, hwhole, hlength, hleft, hrows⟩

end Tidy

end CubeQuery
