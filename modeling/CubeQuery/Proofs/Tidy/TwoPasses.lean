import CubeQuery.Proofs.Tidy.Pairs
import CubeQuery.Proofs.Tidy.Properties

/-!
# Tables in two passes

A header and the rows under it can be made by two passes that share no columns: the first one writes
the titles and notes which depths of which axis they stand for, and the second one reads the notes row by
row. That gives the table that the columns describe (`inTwoPasses_eq`), and no row looks up a member that
is not there.
-/

namespace CubeQuery.Tidy

/-! ## The pass over the header -/

/-- The depths of an axis that the header has titles for. -/
structure Layout where
  axis : ResultAxis
  depths : List Nat

def layOut (cube : Cube) (parents : Bool) (position : Nat) (axis : ResultAxis) :
    List String × Layout :=
  match axis.effectiveLevel?.bind cube.level? with
  | some r =>
    let first := if parents then min r.hierarchy.firstRealDepth r.level.depth else r.level.depth
    let depths := List.range' first (r.level.depth + 1 - first)
    let titles := depths.flatMap fun depth =>
      let caption := ((r.hierarchy.levelAt? depth).map (·.caption)).getD ""
      ["ID " ++ caption, caption]
    (titles, ⟨axis, depths⟩)
  | none =>
    let number := Decimal.natText (position + 1)
    (["ID Axis " ++ number, "Axis " ++ number], ⟨axis, [(axis.members.head?.map (·.depth)).getD 0]⟩)

def layOutAll (cube : Cube) (parents : Bool) (position : Nat) :
    List ResultAxis → List String × List Layout
  | [] => ([], [])
  | axis :: rest =>
    let (titles, layout) := layOut cube parents position axis
    let (others, layouts) := layOutAll cube parents (position + 1) rest
    (titles ++ others, layout :: layouts)

def propertyAxis (axes : List ResultAxis) (spec : PropertySpec) : Except QueryError Nat :=
  match axes.findIdx? fun a => a.effectiveLevel?.any (·.sameHierarchy spec.level) with
  | some position => .ok position
  | none => .error (.propertyNotInDrilldown spec.level.dimension)

/-! ## The pass over the rows -/

/-- A key and a label at each depth, or two nulls where a lineage has no member. -/
def depthCells (captions : CaptionOverrides) (m : Member) (ancestors : List Member)
    (depths : List Nat) : List Scalar :=
  depths.flatMap fun depth =>
    match memberAtDepth? m ancestors depth with
    | some p => [p.key, captions.label p]
    | none => [.null, .null]

/-- The cells of layouts and ordinals side by side; none if an ordinal has no member. -/
def axisCells? (captions : CaptionOverrides) : List Layout → List Nat → Option (List Scalar)
  | layout :: layouts, ordinal :: ordinals => do
    let m ← layout.axis.members[ordinal]?
    let others ← axisCells? captions layouts ordinals
    return depthCells captions m (layout.axis.ancestorsOf m) layout.depths ++ others
  | _, _ => some []

/-- The cell of a property on the layout at a position; none if that has no member there. -/
def propertyCell? (layouts : List Layout) (ordinals : List Nat) (spec : PropertySpec)
    (position : Nat) : Option Scalar := do
  let layout ← layouts[position]?
  let ordinal ← ordinals[position]?
  let m ← layout.axis.members[ordinal]?
  return spec.valueFor m (layout.axis.ancestorsOf m)

def rowCells? (r : CellResult) (options : Options) (layouts : List Layout) (positions : List Nat)
    (ordinals : List Nat) : Option (List Scalar) := do
  let members ← axisCells? options.captions layouts ordinals
  let properties ← (options.properties.zip positions).mapM fun (spec, position) =>
    propertyCell? layouts ordinals spec position
  return members ++ properties ++ (List.range r.measures.length).map (measureCell r ordinals)

/-- The table of a result in two passes; none if a row looks up a member that is not there. -/
def Table.inTwoPasses (r : CellResult) (cube : Cube) (options : Options) :
    Except QueryError (Option Table) := do
  let (titles, layouts) := layOutAll cube options.parents 0 r.drilldownAxes
  let positions ← options.properties.mapM (propertyAxis r.drilldownAxes)
  let header := titles ++ options.properties.map (·.title) ++ r.measures.map (·.caption)
  let rows := (shownOrdinals r options).mapM (rowCells? r options layouts positions)
  return rows.map fun rows => ⟨header, rows, if options.debug then r.mdx else none⟩

def propertyColumns (specs : List PropertySpec) (positions : List Nat) : List Column :=
  (specs.zip positions).map fun (spec, position) => .member position (.property spec)

/-! ## Axes of properties -/

/-- The axis at a position is the first one of the hierarchy of a property. -/
def IsFirstAxis (axes : List ResultAxis) (spec : PropertySpec) (position : Nat) : Prop :=
  (∃ a, axes[position]? = some a ∧ a.effectiveLevel?.any (·.sameHierarchy spec.level) = true) ∧
    ∀ i < position, ∀ a, axes[i]? = some a →
      a.effectiveLevel?.any (·.sameHierarchy spec.level) = false

theorem isFirstAxis_of_propertyAxis {axes : List ResultAxis} {spec : PropertySpec} {position : Nat}
    (h : propertyAxis axes spec = .ok position) : IsFirstAxis axes spec position := by
  rw [propertyAxis] at h
  split at h
  · rename_i hfound
    cases h
    obtain ⟨hlt, hsame, hbefore⟩ := List.findIdx?_eq_some_iff_getElem.1 hfound
    refine ⟨⟨_, List.getElem?_eq_getElem hlt, hsame⟩, fun i hi a ha => ?_⟩
    obtain ⟨hlt', rfl⟩ := List.getElem?_eq_some_iff.1 ha
    simpa using hbefore i hi
  · cases h

theorem mapM_propertyColumn (axes : List ResultAxis) (specs : List PropertySpec) :
    specs.mapM (propertyColumn axes) =
      (specs.mapM (propertyAxis axes)).map (propertyColumns specs) := by
  induction specs with
  | nil => rfl
  | cons spec rest ih =>
      have hfirst : propertyColumn axes spec =
          (propertyAxis axes spec).map (.member · (.property spec)) := by
        rw [propertyColumn, propertyAxis]
        generalize axes.findIdx? _ = found
        cases found <;> rfl
      rw [List.mapM_cons, List.mapM_cons, hfirst, ih]
      cases propertyAxis axes spec with
      | error e => rfl
      | ok position => cases rest.mapM (propertyAxis axes) <;> rfl

/-! ## Titles -/

section Titles

variable (cube : Cube) (parents : Bool)

theorem layOut_eq (position : Nat) (axis : ResultAxis) :
    layOut cube parents position axis =
      ((axisColumns cube parents position axis).map (·.title),
        ⟨axis, (shownDepths cube parents position axis).map (·.1)⟩) := by
  rw [layOut, axisColumns, shownDepths]
  cases axis.effectiveLevel?.bind cube.level? with
  | none => rfl
  | some r =>
      simp only [levelTitles, List.map_flatMap, List.flatMap_map, List.map_map, Function.comp_def,
        List.map_id', List.map_cons, List.map_nil, Column.title, Aspect.title]

theorem layOutAll_titles (position : Nat) (axes : List ResultAxis) :
    (layOutAll cube parents position axes).1 =
      (allAxisColumns cube parents position axes).map (·.title) := by
  induction axes generalizing position with
  | nil => rfl
  | cons axis rest ih => rw [layOutAll, allAxisColumns, List.map_append, ← ih, layOut_eq]

theorem getElem?_layOutAll (first position : Nat) (axes : List ResultAxis) :
    ((layOutAll cube parents first axes).2[position]?).map (·.axis) = axes[position]? := by
  induction axes generalizing first position with
  | nil => rfl
  | cons axis rest ih =>
      cases position with
      | zero => simp [layOutAll, layOut_eq]
      | succ position => simpa [layOutAll] using ih (first + 1) position

theorem map_title_measureColumns (ordinal : Nat) (measures : List Member) :
    (measureColumns ordinal measures).map (·.title) = measures.map (·.caption) := by
  induction measures generalizing ordinal with
  | nil => rfl
  | cons m rest ih => rw [measureColumns, List.map_cons, List.map_cons, ih, Column.title]

end Titles

/-! ## Rows -/

section Rows

variable {r : CellResult} {cube : Cube} {options : Options} {ordinals : List Nat}

theorem value_axisColumns {position : Nat} {axis : ResultAxis} {m : Member}
    (h : rowMember? r ordinals position = some (axis, m)) (parents : Bool) :
    (axisColumns cube parents position axis).map (Column.value r options.captions ordinals) =
      depthCells options.captions m (axis.ancestorsOf m)
        ((shownDepths cube parents position axis).map (·.1)) := by
  rw [axisColumns, depthCells, List.map_flatMap, List.flatMap_map]
  congr 1
  funext shown
  simp only [List.map_cons, List.map_nil, Column.value, h, Option.map_some, Option.getD_some,
    Aspect.of]
  cases memberAtDepth? m (axis.ancestorsOf m) shown.1 <;> rfl

theorem drop_succ_of_drop {α : Type} {as rest : List α} {a : α} {position : Nat}
    (h : as.drop position = a :: rest) : as.drop (position + 1) = rest := by
  rw [← List.drop_drop, h, List.drop_one, List.tail_cons]

theorem getElem?_of_drop {α : Type} {as rest : List α} {a : α} {position : Nat}
    (h : as.drop position = a :: rest) : as[position]? = some a := by
  rw [← List.head?_drop, h, List.head?_cons]

/-- The layouts of the axes from a position on give the cells of their columns. -/
theorem axisCells?_layOutAll {position : Nat} {axes : List ResultAxis} {rest : List Nat}
    (haxes : r.drilldownAxes.drop position = axes) (hordinals : ordinals.drop position = rest)
    (hrest : List.Forall₂ (fun ordinal axis => ordinal < axis.members.length) rest axes) :
    axisCells? options.captions (layOutAll cube options.parents position axes).2 rest =
      some ((allAxisColumns cube options.parents position axes).map
        (Column.value r options.captions ordinals)) := by
  induction hrest generalizing position with
  | nil => rfl
  | @cons ordinal axis rest axes hlt _ ih =>
      have hmember : rowMember? r ordinals position = some (axis, axis.members[ordinal]) := by
        simp [rowMember?, getElem?_of_drop haxes, getElem?_of_drop hordinals,
          List.getElem?_eq_getElem hlt]
      have hothers := ih (drop_succ_of_drop haxes) (drop_succ_of_drop hordinals)
      rw [layOutAll, layOut_eq, allAxisColumns, List.map_append, value_axisColumns hmember]
      simp only [axisCells?, List.getElem?_eq_getElem hlt, hothers]
      rfl

/-- The layout on which a property was found gives the cell of its column. -/
theorem propertyCell?_layOutAll {spec : PropertySpec} {position : Nat} {axis : ResultAxis} {m : Member}
    (h : rowMember? r ordinals position = some (axis, m)) :
    propertyCell? (layOutAll cube options.parents 0 r.drilldownAxes).2 ordinals spec position =
      some (Column.value r options.captions ordinals (.member position (.property spec))) := by
  have hvalue : Column.value r options.captions ordinals (.member position (.property spec)) =
      spec.valueFor m (axis.ancestorsOf m) := by
    simp [Column.value, h, Aspect.of]
  rw [hvalue]
  simp only [rowMember?, Option.bind_eq_bind, Option.bind_eq_some_iff, Option.pure_def,
    Option.some.injEq, Prod.mk.injEq] at h
  obtain ⟨_, haxis, ordinal, hordinal, _, hm, rfl, rfl⟩ := h
  have hlayouts := getElem?_layOutAll cube options.parents 0 position r.drilldownAxes
  obtain ⟨layout, hlayout, rfl⟩ := Option.map_eq_some_iff.1 (hlayouts.trans haxis)
  simp [propertyCell?, hlayout, hordinal, hm]

theorem map_value_measureColumns (captions : CaptionOverrides) (ordinals : List Nat) :
    (measureColumns 0 r.measures).map (Column.value r captions ordinals) =
      (List.range r.measures.length).map (measureCell r ordinals) := by
  apply List.ext_getElem?
  intro i
  rw [List.getElem?_map, List.getElem?_map, getElem?_measureColumns, Nat.zero_add]
  by_cases hi : i < r.measures.length
  · rw [List.getElem?_eq_getElem hi, List.getElem?_range hi]
    rfl
  · rw [List.getElem?_eq_none (by omega), List.getElem?_eq_none (by simpa using hi)]
    rfl

variable (cube) in
/-- A row of the second pass is the row that the columns describe. -/
theorem rowCells?_layOutAll {positions : List Nat}
    (hpositions : options.properties.mapM (propertyAxis r.drilldownAxes) = .ok positions)
    (hordinals : ordinals ∈ shownOrdinals r options) :
    rowCells? r options (layOutAll cube options.parents 0 r.drilldownAxes).2 positions ordinals =
      some ((allAxisColumns cube options.parents 0 r.drilldownAxes ++
        propertyColumns options.properties positions ++
        measureColumns 0 r.measures).map (Column.value r options.captions ordinals)) := by
  have hreading : List.Forall₂ (· < ·) ordinals (r.drilldownAxes.map (·.members.length)) :=
    mem_readings.1 (mem_of_mem_rows (List.mem_of_mem_filter hordinals))
  have haxes : axisCells? options.captions (layOutAll cube options.parents 0 r.drilldownAxes).2 ordinals =
      some ((allAxisColumns cube options.parents 0 r.drilldownAxes).map
        (Column.value r options.captions ordinals)) :=
    axisCells?_layOutAll List.drop_zero List.drop_zero (List.forall₂_map_right_iff.1 hreading)
  have hproperties : ((options.properties.zip positions).mapM fun (spec, position) =>
        propertyCell? (layOutAll cube options.parents 0 r.drilldownAxes).2 ordinals spec position) =
      some ((options.properties.zip positions).map fun (spec, position) =>
        Column.value r options.captions ordinals (.member position (.property spec))) := by
    refine mapM_eq_some_map fun pair hpair => ?_
    obtain ⟨spec, position⟩ := pair
    have hposition := (List.forall₂_iff_zip.1 (mapM_eq_ok.1 hpositions)).2 hpair
    obtain ⟨axis, haxis, -⟩ := (isFirstAxis_of_propertyAxis hposition).1
    obtain ⟨m, -, hm⟩ := exists_rowMember? hordinals haxis
    exact propertyCell?_layOutAll hm
  simp only [rowCells?, haxes, hproperties, List.map_append, propertyColumns, List.map_map,
    map_value_measureColumns]
  rfl

end Rows

theorem map_title_propertyColumns {axes : List ResultAxis} {specs : List PropertySpec}
    {positions : List Nat} (h : specs.mapM (propertyAxis axes) = .ok positions) :
    (propertyColumns specs positions).map (·.title) = specs.map (·.title) := by
  have hlength : specs.length ≤ positions.length := Nat.le_of_eq (mapM_eq_ok.1 h).length_eq
  calc (propertyColumns specs positions).map (·.title)
      = ((specs.zip positions).map Prod.fst).map (·.title) := by
        rw [propertyColumns, List.map_map, List.map_map]
        rfl
    _ = specs.map (·.title) := by rw [List.map_fst_zip hlength]

/-- Two passes make the table that one list of columns describes, and fail where that does; no row looks
up an axis or a member that is not there. -/
theorem inTwoPasses_eq (r : CellResult) (cube : Cube) (options : Options) :
    Table.inTwoPasses r cube options = (Table.ofResult r cube options).map some := by
  rw [Table.inTwoPasses, Table.ofResult, columns, mapM_propertyColumn]
  cases hpositions : options.properties.mapM (propertyAxis r.drilldownAxes) with
  | error e => rfl
  | ok positions =>
      have hrows := mapM_eq_some_map fun ordinals hordinals =>
        rowCells?_layOutAll cube hpositions hordinals
      simp only [rows_eq, columnRows, layOutAll_titles, ← map_title_propertyColumns hpositions,
        ← map_title_measureColumns 0, ← List.map_append]
      show (Except.ok _ : Except QueryError (Option Table)) = .ok _
      rw [hrows]
      rfl

end CubeQuery.Tidy
