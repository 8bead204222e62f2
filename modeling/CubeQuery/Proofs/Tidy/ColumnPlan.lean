import CubeQuery.Output.Format
import CubeQuery.Proofs.Tidy.OwnPairs
import CubeQuery.Proofs.Tidy.TwoPasses

/-!
# The column plan

A table has one list of columns that its header names and every row has the values of, so that no
rendering of it meets a row of another length (`header_and_rows_share_columns`).
-/

namespace CubeQuery.Tidy

/-! ## Plans -/

/-- The depths that are shown of the axis at a position, root first and each with its title: those down
to the level of the axis, or a single one if the cube does not know that level. -/
structure ShowsDepths (cube : Cube) (parents : Bool) (position : Nat) (a : ResultAxis)
    (depths : List (Nat × String)) : Prop where
  rootFirst : (depths.map (·.1)).Pairwise (· < ·)
  known : ∀ r, a.effectiveLevel?.bind cube.level? = some r → ∀ depth title,
    (depth, title) ∈ depths ↔
      (if parents then firstShown r else r.level.depth) ≤ depth ∧ depth ≤ r.level.depth ∧
        title = depthTitle r.hierarchy depth
  unknown : a.effectiveLevel?.bind cube.level? = none →
    depths = [((a.members.head?.map (·.depth)).getD 0, "Axis " ++ Decimal.natText (position + 1))]

/-- A list of columns: for every drilldown axis a key and a label for each shown depth, for every
property a column on its axis, and every measure. -/
structure IsColumnPlan (r : CellResult) (cube : Cube) (options : Options) (cs : List Column) :
    Prop where
  exists_parts : ∃ (depths : List (List (Nat × String))) (positions : List Nat),
    depths.length = r.drilldownAxes.length ∧
    (∀ position a shown, r.drilldownAxes[position]? = some a → depths[position]? = some shown →
      ShowsDepths cube options.parents position a shown) ∧
    List.Forall₂ (IsFirstAxis r.drilldownAxes) options.properties positions ∧
    cs = (depths.mapIdx fun position shown => shown.flatMap fun (depth, title) =>
        [.member position (.key depth title), .member position (.label depth title)]).flatten ++
      propertyColumns options.properties positions ++
      r.measures.mapIdx fun ordinal m => .measure ordinal m.caption

/-- What a column shows in the row of some ordinals, where the row has a member of its axis. -/
inductive Column.Shows (r : CellResult) (captions : CaptionOverrides) (ordinals : List Nat) :
    Column → Scalar → Prop
  | member {position : Nat} {a : ResultAxis} {m : Member} {aspect : Aspect}
      (h : rowMember? r ordinals position = some (a, m)) :
      Shows r captions ordinals (.member position aspect) (aspect.of captions m (a.ancestorsOf m))
  | measure {ordinal : Nat} {title : String} :
      Shows r captions ordinals (.measure ordinal title) (r.cell (ordinal :: ordinals))

section Plan

variable {r : CellResult} {cube : Cube} {options : Options}

theorem rootFirst_levelTitles (h : Hierarchy) (first last : Nat) :
    ((levelTitles h first last).map (·.1)).Pairwise (· < ·) := by
  have hdepths : (levelTitles h first last).map (·.1) = List.range' first (last + 1 - first) := by
    simp [levelTitles, Function.comp_def]
  rw [hdepths]
  exact List.pairwise_lt_range'

theorem mem_levelTitles {h : Hierarchy} {first last depth : Nat} {title : String} :
    (depth, title) ∈ levelTitles h first last ↔
      first ≤ depth ∧ depth ≤ last ∧ title = depthTitle h depth := by
  simp only [levelTitles, List.mem_map, List.mem_range'_1, Prod.mk.injEq]
  constructor
  · intro hmem
    obtain ⟨_, ⟨hfirst, hlast⟩, rfl, rfl⟩ := hmem
    exact ⟨hfirst, by omega, rfl⟩
  · intro hmem
    obtain ⟨hfirst, hlast, rfl⟩ := hmem
    exact ⟨depth, ⟨hfirst, by omega⟩, rfl, rfl⟩

theorem showsDepths_shownDepths (parents : Bool) (position : Nat) (a : ResultAxis) :
    ShowsDepths cube parents position a (shownDepths cube parents position a) := by
  rw [shownDepths]
  cases hlevel : a.effectiveLevel?.bind cube.level? with
  | none =>
      exact ⟨List.pairwise_singleton _ _, fun r h => by simp [hlevel] at h, fun _ => rfl⟩
  | some level =>
      refine ⟨rootFirst_levelTitles _ _ _, fun r h depth title => ?_, fun h => by simp [hlevel] at h⟩
      cases hlevel.symm.trans h
      exact mem_levelTitles

theorem isColumnPlan_of_columns {cs : List Column} (h : columns r cube options = .ok cs) :
    IsColumnPlan r cube options cs := by
  rw [columns, mapM_propertyColumn] at h
  cases hpositions : options.properties.mapM (propertyAxis r.drilldownAxes) with
  | error e =>
      rw [hpositions] at h
      cases h
  | ok positions =>
      rw [hpositions] at h
      cases h
      refine ⟨r.drilldownAxes.mapIdx (shownDepths cube options.parents), positions,
        List.length_mapIdx, fun position a shown ha hshown => ?_,
        (mapM_eq_ok.1 hpositions).imp fun _ _ => isFirstAxis_of_propertyAxis, ?_⟩
      · rw [List.getElem?_mapIdx, ha] at hshown
        cases hshown
        exact showsDepths_shownDepths options.parents position a
      · rw [allAxisColumns_eq, measureColumns_eq, List.mapIdx_mapIdx]
        simp only [Nat.zero_add]
        rfl

theorem shows_value {cs : List Column} (h : columns r cube options = .ok cs) {c : Column} (hc : c ∈ cs)
    {ordinals : List Nat} (hordinals : ordinals ∈ shownOrdinals r options) :
    c.Shows r options.captions ordinals (c.value r options.captions ordinals) := by
  cases of_mem_columns h hc with
  | measure hordinal => exact .measure
  | member ha =>
      obtain ⟨m, -, hm⟩ := exists_rowMember? hordinals ha
      rw [Column.value, hm]
      exact .member hm

end Plan

/-! ## Renderings -/

theorem write_eq_ok_iff {t : Table} :
    Output.Csv.write t = .ok (Output.Csv.text t) ↔ ∀ row ∈ t.rows, row.length = t.header.length := by
  rw [Output.Csv.write]
  cases hfound : t.rows.find? fun row => row.length != t.header.length with
  | none =>
      have heven : ∀ row ∈ t.rows, row.length = t.header.length := by simpa using hfound
      exact iff_of_true rfl heven
  | some row =>
      have huneven : row.length ≠ t.header.length := by simpa using List.find?_some hfound
      refine iff_of_false (by simp) fun h => huneven (h row (List.mem_of_find?_eq_some hfound))

/-- The fields of a record are all titles and all values. -/
theorem recordFields_of_length_eq {header : List String} {row : List Scalar}
    (h : row.length = header.length) :
    (Output.Records.recordFields header row).map (·.1) = header ∧
      (Output.Records.recordFields header row).map (·.2) = row.map (·.json) := by
  have hlength : (row.map (·.json)).length = header.length := by rw [List.length_map, h]
  exact ⟨List.map_fst_zip (Nat.le_of_eq hlength.symm), List.map_snd_zip (Nat.le_of_eq hlength)⟩

/-- A table has one list of columns: its header is their titles and each row is what they show. The two
passes of which neither knows the columns make the same table. So all rows are as long as the header, and
delimited text and records show every value of them. -/
theorem header_and_rows_share_columns (r : CellResult) (cube : Cube) (options : Options) (t : Table)
    (h : Table.ofResult r cube options = .ok t) :
    (∃ cs, IsColumnPlan r cube options cs ∧ t.header = cs.map (·.title) ∧
      List.Forall₂ (fun ordinals row => List.Forall₂ (Column.Shows r options.captions ordinals) cs row)
        (shownOrdinals r options) t.rows) ∧
    Table.inTwoPasses r cube options = .ok (some t) ∧
    (∀ row ∈ t.rows, row.length = t.header.length) ∧
    Output.Format.csv.render r cube options = .ok (Output.Csv.text t) ∧
    Output.Format.jsonRecords.render r cube options = .ok (Output.Records.json t).compact ∧
    ∀ row ∈ t.rows,
      (Output.Records.recordFields t.header row).map (·.1) = t.header ∧
      (Output.Records.recordFields t.header row).map (·.2) = row.map (·.json) := by
  obtain ⟨cs, hcs, ht⟩ := ofResult_eq_ok.1 h
  have hlength : ∀ row ∈ t.rows, row.length = t.header.length := by
    intro row hrow
    rw [ht] at hrow ⊢
    obtain ⟨ordinals, -, rfl⟩ := List.mem_map.1 hrow
    rw [List.length_map, List.length_map]
  refine ⟨⟨cs, isColumnPlan_of_columns hcs, by rw [ht], ?_⟩, ?_, hlength, ?_, ?_,
    fun row hrow => recordFields_of_length_eq (hlength row hrow)⟩
  · rw [ht]
    refine List.forall₂_map_right_iff.2 (List.forall₂_same.2 fun ordinals hordinals => ?_)
    exact List.forall₂_map_right_iff.2 (List.forall₂_same.2 fun c hc => shows_value hcs hc hordinals)
  · rw [inTwoPasses_eq, h]
    rfl
  · rw [Output.Format.render, h]
    show (Output.Csv.write t).mapError _ = _
    rw [write_eq_ok_iff.2 hlength]
    rfl
  · rw [Output.Format.render, h]
    rfl

/-- Two states, a town on a level that the cube does not know, a property of the states and a measure. -/
theorem header_and_rows_share_columns_unknown_level :
    let states : ResultAxis := ⟨[storeMember "CA" 2 "State", storeMember "OR" 2 "State"], none, .empty⟩
    let towns : ResultAxis := ⟨[{ storeMember "Salem" 7 "Town" with
      level := ⟨"Town", "Town", "Town"⟩ }], none, .empty⟩
    let r : CellResult := ⟨[.ofMembers [.ofMeasure "Units" "[Measures].[Units]" "Units"], states, towns],
      .dense [.int 10, .null], none⟩
    let options : Options := { plainOptions with
      parents := true, properties := [⟨⟨"Store", "Store", "State"⟩, "Size"⟩] }
    ∃ t cs, Table.ofResult r storeCube options = .ok t ∧ IsColumnPlan r storeCube options cs ∧
      cs.map (·.title) =
        ["ID Country", "Country", "ID State", "State", "ID Axis 2", "Axis 2", "Size", "Units"] ∧
      t.rows.length = 2 ∧ ∀ row ∈ t.rows, row.length = 8 := by
  intro states towns r options
  have hcompute : ((Table.ofResult r storeCube options).toOption.any fun t =>
      decide (t.header =
        ["ID Country", "Country", "ID State", "State", "ID Axis 2", "Axis 2", "Size", "Units"] ∧
        t.rows.length = 2)) = true := by
    decide +kernel
  obtain ⟨t, htable, hheader⟩ := (Option.any_eq_true _ _).1 hcompute
  obtain ⟨hheader, hrows⟩ := of_decide_eq_true hheader
  have hok := toOption_eq_some_iff.1 htable
  obtain ⟨⟨cs, hplan, htitles, -⟩, -, hlength, -⟩ :=
    header_and_rows_share_columns r storeCube options t hok
  refine ⟨t, cs, hok, hplan, htitles.symm.trans hheader, hrows, fun row hrow => ?_⟩
  rw [hlength row hrow, hheader]
  rfl

end CubeQuery.Tidy
