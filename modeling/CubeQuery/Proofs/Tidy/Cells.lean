import CubeQuery.Proofs.Outcome
import CubeQuery.Proofs.Result.Nested
import CubeQuery.Proofs.Result.Readings
import CubeQuery.Tidy.Table

/-!
# The cells of tidy rows

A row belongs to one tuple of ordinals, and its place among all rows is that tuple written as a number.
The measure columns of a row are the cells at its ordinals; the nested form of a result has the same
cells at the same ordinals (`rows_agree_with_nested`).
-/

namespace CubeQuery.Tidy

/-! ## Measure columns -/

theorem length_measureColumns (ordinal : Nat) (measures : List Member) :
    (measureColumns ordinal measures).length = measures.length := by
  induction measures generalizing ordinal with
  | nil => rfl
  | cons m rest ih => simp [measureColumns, ih]

theorem getElem?_measureColumns (ordinal : Nat) (measures : List Member) (i : Nat) :
    (measureColumns ordinal measures)[i]? =
      (measures[i]?).map fun m => .measure (ordinal + i) m.caption := by
  induction measures generalizing ordinal i with
  | nil => simp [measureColumns]
  | cons m rest ih =>
      cases i with
      | zero => simp [measureColumns]
      | succ i =>
          have hordinal : ordinal + 1 + i = ordinal + (i + 1) := by omega
          simp [measureColumns, ih, hordinal]

theorem measureColumns_eq (measures : List Member) :
    measureColumns 0 measures = measures.mapIdx fun ordinal m => .measure ordinal m.caption := by
  apply List.ext_getElem?
  intro i
  rw [getElem?_measureColumns, List.getElem?_mapIdx, Nat.zero_add]

/-! ## Columns of a result -/

theorem allAxisColumns_eq {cube : Cube} (parents : Bool) (first : Nat) (axes : List ResultAxis) :
    allAxisColumns cube parents first axes =
      (axes.mapIdx fun position a => axisColumns cube parents (first + position) a).flatten := by
  induction axes generalizing first with
  | nil => rfl
  | cons a rest ih =>
      rw [allAxisColumns, ih, List.mapIdx_cons, List.flatten_cons]
      simp only [Nat.add_zero, Nat.add_assoc, Nat.add_comm 1]

/-- The axis of a property is the first one of its hierarchy. -/
theorem propertyColumn_eq_ok {axes : List ResultAxis} {spec : PropertySpec} {c : Column}
    (h : propertyColumn axes spec = .ok c) :
    ∃ position axis, axes[position]? = some axis ∧
      axis.effectiveLevel?.any (·.sameHierarchy spec.level) = true ∧
      c = .member position (.property spec) := by
  rw [propertyColumn] at h
  split at h
  · rename_i position hposition
    cases h
    obtain ⟨hlt, hsame, -⟩ := List.findIdx?_eq_some_iff_getElem.1 hposition
    exact ⟨position, axes[position], List.getElem?_eq_getElem hlt, hsame, rfl⟩
  · cases h

inductive Column.IsOf (r : CellResult) : Column → Prop
  | member {position : Nat} {a : ResultAxis} {aspect : Aspect} (h : r.drilldownAxes[position]? = some a) :
      IsOf r (.member position aspect)
  | measure {ordinal : Nat} {title : String} (h : ordinal < r.measures.length) :
      IsOf r (.measure ordinal title)

theorem of_mem_columns {r : CellResult} {cube : Cube} {options : Options} {cs : List Column}
    (h : columns r cube options = .ok cs) {c : Column} (hc : c ∈ cs) : c.IsOf r := by
  obtain ⟨properties, hproperties, h⟩ := bind_eq_ok.1 h
  cases h
  rw [List.mem_append, List.mem_append, or_assoc, allAxisColumns_eq, measureColumns_eq] at hc
  obtain hc | hc | hc := hc
  · obtain ⟨block, hblock, hc⟩ := List.mem_flatten.1 hc
    obtain ⟨position, hposition, rfl⟩ := List.mem_mapIdx.1 hblock
    obtain ⟨shown, -, hc⟩ := List.mem_flatMap.1 hc
    rw [Nat.zero_add, List.mem_pair] at hc
    have haxis := List.getElem?_eq_getElem hposition
    obtain rfl | rfl := hc
    · exact .member haxis
    · exact .member haxis
  · obtain ⟨spec, -, hspec⟩ := exists_of_mem_mapM hproperties hc
    obtain ⟨position, a, ha, -, rfl⟩ := propertyColumn_eq_ok hspec
    exact .member ha
  · obtain ⟨ordinal, hordinal, rfl⟩ := List.mem_mapIdx.1 hc
    exact .measure hordinal

/-- The measure columns come last. -/
theorem columns_eq_append {r : CellResult} {cube : Cube} {options : Options} {cs : List Column}
    (h : columns r cube options = .ok cs) : ∃ others, cs = others ++ measureColumns 0 r.measures := by
  obtain ⟨properties, -, h⟩ := bind_eq_ok.1 h
  cases h
  exact ⟨_, rfl⟩

/-- The values in the measure columns are the cells of the row. -/
theorem getElem?_measure_value {r : CellResult} {cube : Cube} {options : Options} {cs : List Column}
    (h : columns r cube options = .ok cs) (ordinals : List Nat) {m : Nat} (hm : m < r.measures.length) :
    (cs.map (Column.value r options.captions ordinals))[cs.length - r.measures.length + m]? =
      some (measureCell r ordinals m) := by
  obtain ⟨others, rfl⟩ := columns_eq_append h
  have hindex : (others ++ measureColumns 0 r.measures).length - r.measures.length + m =
      others.length + m := by
    rw [List.length_append, length_measureColumns, Nat.add_sub_cancel]
  rw [hindex, List.getElem?_map, List.getElem?_append_right (Nat.le_add_right _ _),
    Nat.add_sub_cancel_left, getElem?_measureColumns, List.getElem?_eq_getElem hm]
  simp [Column.value]

theorem ofResult_eq_ok {r : CellResult} {cube : Cube} {options : Options} {t : Table} :
    Table.ofResult r cube options = .ok t ↔ ∃ cs, columns r cube options = .ok cs ∧
      t = ⟨cs.map (·.title), columnRows r options cs, if options.debug then r.mdx else none⟩ := by
  rw [Table.ofResult, bind_eq_ok]
  simp only [rows_eq]
  constructor
  · intro h
    obtain ⟨cs, hcs, h⟩ := h
    cases h
    exact ⟨cs, hcs, rfl⟩
  · intro h
    obtain ⟨cs, hcs, rfl⟩ := h
    exact ⟨cs, hcs, rfl⟩

/-- Every row of a table is as long as its header. -/
theorem length_of_mem_rows {r : CellResult} {cube : Cube} {options : Options} {t : Table}
    (h : Table.ofResult r cube options = .ok t) {row : List Scalar} (hrow : row ∈ t.rows) :
    row.length = t.header.length := by
  obtain ⟨cs, -, rfl⟩ := ofResult_eq_ok.1 h
  obtain ⟨ordinals, -, rfl⟩ := List.mem_map.1 hrow
  rw [List.length_map, List.length_map]

/-! ## Rows and their ordinals -/

theorem mem_of_mem_rows {α : Type} {w : Plan.Window} {rows : List α} {a : α}
    (h : a ∈ w.rows rows) : a ∈ rows := by
  simp only [Plan.Window.rows, Plan.Window.takeLimit] at h
  split at h
  · exact List.mem_of_mem_drop (List.mem_of_mem_take h)
  · exact List.mem_of_mem_drop h

/-- Without a window and with vacant rows shown there is a row for every tuple. -/
theorem shownOrdinals_eq_readings {options : Options} (r : CellResult)
    (hsparse : options.sparse = false) (hwindow : options.window = .everything) :
    shownOrdinals r options = readings (rowShape r) := by
  simp [shownOrdinals, hsparse, hwindow]

theorem shape_eq_cons {r : CellResult} (h : r.axes ≠ []) :
    r.shape = r.measures.length :: rowShape r := by
  obtain ⟨first, rest, hcons⟩ := List.exists_cons_of_ne_nil h
  simp [CellResult.shape, CellResult.measures, rowShape, CellResult.drilldownAxes, hcons]

/-- The table of a result has a row for every tuple of members of the drilldown axes, in the order of
the tuples as numbers. A row shows the members at its ordinals, and its measure columns, as JSON, are
what the nested form has at the same ordinals, last axis first, and the ordinal of the measure. -/
theorem rows_agree_with_nested (r : CellResult) (cube : Cube) (options : Options) (t : Table)
    (haxes : r.axes ≠ []) (hsparse : options.sparse = false) (hwindow : options.window = .everything)
    (h : Table.ofResult r cube options = .ok t) :
    t.rows.length = (rowShape r).prod ∧
    ∃ cs, columns r cube options = .ok cs ∧ t.header = cs.map (·.title) ∧
      ∀ i < t.rows.length, ∃ ordinals row, t.rows[i]? = some row ∧
        IsNumeral (rowShape r) ordinals i ∧
        row = cs.map (Column.value r options.captions ordinals) ∧
        ∀ m < r.measures.length, ∃ value,
          row[t.header.length - r.measures.length + m]? = some value ∧
          (r.nested (·.json)).at? (ordinals.reverse ++ [m]) = some value.json := by
  obtain ⟨cs, hcs, rfl⟩ := ofResult_eq_ok.1 h
  have hrows : columnRows r options cs = (readings (rowShape r)).map fun ordinals =>
      cs.map (Column.value r options.captions ordinals) := by
    rw [columnRows, shownOrdinals_eq_readings r hsparse hwindow]
  have hlength : (columnRows r options cs).length = (rowShape r).prod := by
    rw [hrows, List.length_map, length_readings, readingCount_eq_prod]
  refine ⟨hlength, cs, hcs, rfl, ?_⟩
  intro i hi
  have hplace : i < (readings (rowShape r)).length := by
    rwa [length_readings, readingCount_eq_prod, ← hlength]
  obtain ⟨ordinals, hordinals⟩ : ∃ ordinals, (readings (rowShape r))[i]? = some ordinals :=
    ⟨_, List.getElem?_eq_getElem hplace⟩
  have hnumeral := getElem?_readings.1 hordinals
  refine ⟨ordinals, _, by rw [hrows, List.getElem?_map, hordinals]; rfl, hnumeral, rfl, ?_⟩
  intro m hm
  refine ⟨measureCell r ordinals m, ?_, ?_⟩
  · obtain ⟨others, rfl⟩ := columns_eq_append hcs
    have hindex : (others ++ measureColumns 0 r.measures).length - r.measures.length + m =
        others.length + m := by
      rw [List.length_append, length_measureColumns, Nat.add_sub_cancel]
    rw [List.length_map, hindex, List.getElem?_map, List.getElem?_append_right (by omega),
      Nat.add_sub_cancel_left, getElem?_measureColumns, List.getElem?_eq_getElem hm]
    simp [Column.value]
  · have hcoordinates : List.Forall₂ (· < ·) (m :: ordinals) r.shape := by
      rw [shape_eq_cons haxes]
      exact .cons hm hnumeral.digits_lt
    have hat := r.at?_nested (·.json) hcoordinates
    rwa [List.reverse_cons] at hat

/-- Two measures over two years and three products: the fifth row is that of the second year and the
second product. -/
theorem rows_agree_with_nested_two_axes :
    let axis (names : List String) := ResultAxis.ofMembers (names.map fun n => Member.ofMeasure n n n)
    let r : CellResult := ⟨[axis ["units", "sales"], axis ["1997", "1998"], axis ["a", "b", "c"]],
      .dense ((List.range 12).map fun n => .int n), none⟩
    let cube : Cube := ⟨"Sales", .empty, [], [], []⟩
    let options : Options := ⟨false, false, [], ⟨[]⟩, false, .everything⟩
    ∃ t, Table.ofResult r cube options = .ok t ∧ t.rows.length = 6 ∧
      ∃ row value, t.rows[4]? = some row ∧ row[5]? = some value ∧
        (r.nested (·.json)).at? [1, 1, 1] = some value.json := by
  intro axis r cube options
  have hsome : (Table.ofResult r cube options).toOption.map (fun t => t.header.length) = some 6 := by
    decide +kernel
  cases ht : Table.ofResult r cube options with
  | error e => simp [ht, Except.toOption] at hsome
  | ok t =>
      have hheader : t.header.length = 6 := by simpa [ht, Except.toOption] using hsome
      obtain ⟨hlength, cs, -, -, hrows⟩ :=
        rows_agree_with_nested r cube options t (by simp [r]) rfl rfl ht
      have hsix : t.rows.length = 6 := hlength
      obtain ⟨ordinals, row, hrow, hnumeral, -, hcells⟩ := hrows 4 (by omega)
      have hordinals : ordinals = [1, 1] := by
        have hshape : rowShape r = [2, 3] := rfl
        have hdigits := digitsOf_placeOf hnumeral.digits_lt
        rw [hnumeral.place_eq, hshape] at hdigits
        exact hdigits.symm.trans (by decide)
      obtain ⟨value, hvalue, hnested⟩ := hcells 1 (by decide)
      rw [hordinals] at hnested
      rw [hheader] at hvalue
      exact ⟨t, rfl, hsix, row, value, hrow, hvalue, hnested⟩

end CubeQuery.Tidy
