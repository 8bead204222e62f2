import CubeQuery.Proofs.Tidy.Pairs

/-!
# The pair of the row's own member

The last pair of an axis is that of one depth. It shows the member of the row where that member lies
at this depth; otherwise it shows an ancestor, or nulls where there is none there (`own_pair_iff`).
-/

namespace CubeQuery.Tidy

def lastDepth (cube : Cube) (a : ResultAxis) : Nat :=
  match a.effectiveLevel?.bind cube.level? with
  | some r => r.level.depth
  | none => (a.members.head?.map (·.depth)).getD 0

def lastTitle (cube : Cube) (position : Nat) (a : ResultAxis) : String :=
  match a.effectiveLevel?.bind cube.level? with
  | some r => depthTitle r.hierarchy r.level.depth
  | none => "Axis " ++ Decimal.natText (position + 1)

def lastPlace (cube : Cube) (parents : Bool) (axes : List ResultAxis) (position : Nat)
    (a : ResultAxis) : Nat :=
  2 * shownBefore cube parents axes position + 2 * (shownCount cube parents a - 1)

section Last

variable {cube : Cube}

theorem getElem?_levelTitles_last {h : Hierarchy} {first last : Nat} (hle : first ≤ last) :
    (levelTitles h first last)[(levelTitles h first last).length - 1]? =
      some (last, depthTitle h last) := by
  have hlength : (levelTitles h first last).length - 1 = last - first := by
    rw [levelTitles, List.length_map, List.length_range']
    omega
  have hlast : first + 1 * (last - first) = last := by omega
  rw [hlength, levelTitles, List.getElem?_map, List.getElem?_range' (by omega), hlast]
  rfl

theorem getElem?_shownDepths_last (parents : Bool) (position : Nat) (a : ResultAxis) :
    (shownDepths cube parents position a)[shownCount cube parents a - 1]? =
      some (lastDepth cube a, lastTitle cube position a) := by
  rw [← length_shownDepths parents position]
  cases hlevel : a.effectiveLevel?.bind cube.level? with
  | none => simp only [shownDepths, lastDepth, lastTitle, hlevel, List.length_singleton]; rfl
  | some r =>
      simp only [shownDepths, lastDepth, lastTitle, hlevel]
      exact getElem?_levelTitles_last (by split <;> omega)

theorem getElem?_columns_last {r : CellResult} {options : Options} {cs : List Column}
    (h : columns r cube options = .ok cs) {position : Nat} {a : ResultAxis}
    (ha : r.drilldownAxes[position]? = some a) :
    cs[lastPlace cube options.parents r.drilldownAxes position a]? =
        some (.member position (.key (lastDepth cube a) (lastTitle cube position a))) ∧
      cs[lastPlace cube options.parents r.drilldownAxes position a + 1]? =
        some (.member position (.label (lastDepth cube a) (lastTitle cube position a))) := by
  have hpair := getElem?_flatMap_pair
    (fun s : Nat × String => Column.member position (.key s.1 s.2))
    (fun s => .member position (.label s.1 s.2))
    (shownDepths cube options.parents position a) (shownCount cube options.parents a - 1)
  rw [getElem?_shownDepths_last] at hpair
  exact ⟨getElem?_columns h ha hpair.1, getElem?_columns h ha hpair.2⟩

/-- The last pair shows what stands at its depth. -/
theorem pairAt_last_iff {r : CellResult} {options : Options} {table : Table}
    (htidy : Table.ofResult r cube options = .ok table) {i : Nat} {row : List Scalar}
    (hrow : table.rows[i]? = some row) {ordinals : List Nat}
    (hordinals : (shownOrdinals r options)[i]? = some ordinals) {position : Nat} {a : ResultAxis}
    (ha : r.drilldownAxes[position]? = some a) {m : Member}
    (hm : rowMember? r ordinals position = some (a, m)) {key label : Scalar} :
    table.PairAt row (lastPlace cube options.parents r.drilldownAxes position a)
        (lastTitle cube position a) key label ↔
      ((memberAtDepth? m (a.ancestorsOf m) (lastDepth cube a)).map (·.key)).getD .null = key ∧
        ((memberAtDepth? m (a.ancestorsOf m) (lastDepth cube a)).map options.captions.label).getD
          .null = label := by
  obtain ⟨cs, hcs, rfl⟩ := ofResult_eq_ok.1 htidy
  obtain ⟨hkey, hlabel⟩ := getElem?_columns_last hcs ha
  have hvalues : row = cs.map (Column.value r options.captions ordinals) :=
    eq_of_getElem?_columnRows hrow hordinals
  constructor
  · intro h
    have hk := h.key
    have hl := h.label
    simp only [hvalues, List.getElem?_map, hkey, hlabel, Option.map_some, Column.value, hm, Aspect.of,
      Option.getD_some, Option.some.injEq] at hk hl
    exact ⟨hk, hl⟩
  · rintro ⟨rfl, rfl⟩
    constructor
    · simp [hkey, Column.title, Aspect.title]
    · simp [hlabel, Column.title, Aspect.title]
    · simp [hvalues, hkey, Column.value, hm, Aspect.of]
    · simp [hvalues, hlabel, Column.value, hm, Aspect.of]

end Last

theorem memberAtDepth?_eq_some {m p : Member} {ancestors : List Member} {depth : Nat} :
    memberAtDepth? m ancestors depth = some p ↔
      m.depth = depth ∧ m = p ∨ m.depth ≠ depth ∧ ancestors.find? (·.depth == depth) = some p := by
  rw [memberAtDepth?]
  split <;> simp [*]

theorem memberAtDepth?_eq_none {m : Member} {ancestors : List Member} {depth : Nat} :
    memberAtDepth? m ancestors depth = none ↔
      m.depth ≠ depth ∧ ∀ p ∈ ancestors, p.depth ≠ depth := by
  rw [memberAtDepth?]
  split <;> simp [*]

/-- The values in the measure columns of a row are the cells of the members of the row, one of each
axis. The last pair of an axis has the key and the label of its member just when the member, or an
ancestor of it that looks the same, lies at the depth of the pair, and it has nulls just when neither
lies there. -/
theorem own_pair_iff (r : CellResult) (cube : Cube) (options : Options) (table : Table)
    (h : Table.ofResult r cube options = .ok table) (i : Nat) (row : List Scalar)
    (hrow : table.rows[i]? = some row) :
    ∃ ordinals, (shownOrdinals r options)[i]? = some ordinals ∧
      (∀ j < r.measures.length,
        row[table.header.length - r.measures.length + j]? = some (r.cell (j :: ordinals))) ∧
      ∀ position axis, r.drilldownAxes[position]? = some axis →
        ∃ m, rowMember? r ordinals position = some (axis, m) ∧
          (table.PairAt row (lastPlace cube options.parents r.drilldownAxes position axis)
              (lastTitle cube position axis) m.key (options.captions.label m) ↔
            m.depth = lastDepth cube axis ∨
              ∃ p, (axis.ancestorsOf m).find? (·.depth == lastDepth cube axis) = some p ∧
                p.key = m.key ∧ options.captions.label p = options.captions.label m) ∧
          (table.PairAt row (lastPlace cube options.parents r.drilldownAxes position axis)
              (lastTitle cube position axis) .null .null ↔
            m.depth ≠ lastDepth cube axis ∧
              ∀ p ∈ axis.ancestorsOf m, p.depth ≠ lastDepth cube axis) := by
  obtain ⟨ordinals, hordinals⟩ := exists_ordinals h hrow
  refine ⟨ordinals, hordinals, ?_, ?_⟩
  · intro j hj
    obtain ⟨cs, hcs, rfl⟩ := ofResult_eq_ok.1 h
    rw [eq_of_getElem?_columnRows hrow hordinals, List.length_map]
    exact getElem?_measure_value hcs ordinals hj
  intro position axis haxis
  obtain ⟨m, -, hm⟩ := exists_rowMember? (List.mem_of_getElem? hordinals) haxis
  refine ⟨m, hm, ?_, ?_⟩
  · rw [pairAt_last_iff h hrow hordinals haxis hm]
    cases hshown : memberAtDepth? m (axis.ancestorsOf m) (lastDepth cube axis) with
    | none =>
        obtain ⟨hdepth, hnone⟩ := memberAtDepth?_eq_none.1 hshown
        have hfind : (axis.ancestorsOf m).find? (·.depth == lastDepth cube axis) = none := by
          simpa using hnone
        simp [hdepth, hfind, CaptionOverrides.label]
    | some p =>
        obtain ⟨hdepth, rfl⟩ | ⟨hdepth, hfind⟩ := memberAtDepth?_eq_some.1 hshown
        · simp [hdepth]
        · simp [hdepth, hfind]
  · rw [pairAt_last_iff h hrow hordinals haxis hm, ← memberAtDepth?_eq_none]
    cases memberAtDepth? m (axis.ancestorsOf m) (lastDepth cube axis) with
    | none => simp
    | some p => simp [CaptionOverrides.label]

/-! ## An axis of two levels -/

def storeLevel (name : String) (depth : Nat) : Level := ⟨name, name, name, depth, []⟩

def storeCube : Cube where
  name := "Sales"
  annotations := .empty
  dimensions := [⟨"Store", "Store", .standard, .empty, [⟨"Store", "[Store]", true, some "All",
    [storeLevel "All" 0, storeLevel "Country" 1, storeLevel "State" 2]⟩]⟩]
  measures := []
  namedSets := []

def storeMember (name : String) (depth : Nat) (level : String) : Member where
  name := name
  fullName := name
  caption := name
  key := .text name
  depth := depth
  allMember := false
  drillable := false
  numChildren := 0
  parentName := none
  level := ⟨"Store", "Store", level⟩
  properties := .empty

/-- The units of a country and of one of its states, as a set may name them. -/
def mixedResult : CellResult where
  axes := [.ofMembers [.ofMeasure "Units" "[Measures].[Units]" "Units"],
    .ofMembers [storeMember "USA" 1 "Country", storeMember "CA" 2 "State"]]
  cells := .dense [.int 10, .int 3]
  mdx := none

def plainOptions : Options := ⟨false, false, [], ⟨[]⟩, false, .everything⟩

/-- The country has its own pair and the state has nulls. -/
theorem own_pair_iff_mixed :
    ∃ table country state, Table.ofResult mixedResult storeCube plainOptions = .ok table ∧
      table.rows[0]? = some country ∧ table.rows[1]? = some state ∧
      table.PairAt country 0 "Country" (.text "USA") (.text "USA") ∧
      table.PairAt state 0 "Country" .null .null := by
  obtain ⟨table, htable⟩ : ∃ table, Table.ofResult mixedResult storeCube plainOptions = .ok table :=
    ⟨_, rfl⟩
  have hlength : table.rows.length = 2 := by
    cases htable
    rfl
  obtain ⟨country, hcountry⟩ : ∃ row, table.rows[0]? = some row :=
    ⟨_, List.getElem?_eq_getElem (by omega)⟩
  obtain ⟨state, hstate⟩ : ∃ row, table.rows[1]? = some row :=
    ⟨_, List.getElem?_eq_getElem (by omega)⟩
  refine ⟨table, country, state, htable, hcountry, hstate, ?_, ?_⟩
  · obtain ⟨ordinals, hordinals, -, hpairs⟩ := own_pair_iff _ _ _ table htable 0 country hcountry
    obtain rfl : [0] = ordinals := by
      have hfirst : (shownOrdinals mixedResult plainOptions)[0]? = some [0] := by decide +kernel
      exact Option.some.inj (hfirst.symm.trans hordinals)
    obtain ⟨m, hm, hown, -⟩ := hpairs 0 _ rfl
    cases hm
    exact hown.2 (.inl (by decide +kernel))
  · obtain ⟨ordinals, hordinals, -, hpairs⟩ := own_pair_iff _ _ _ table htable 1 state hstate
    obtain rfl : [1] = ordinals := by
      have hsecond : (shownOrdinals mixedResult plainOptions)[1]? = some [1] := by decide +kernel
      exact Option.some.inj (hsecond.symm.trans hordinals)
    obtain ⟨m, hm, -, hnulls⟩ := hpairs 0 _ rfl
    cases hm
    exact hnulls.2 (by decide +kernel)

/-- The row with the cell of the state has nulls in the only pair of its axis. -/
theorem not_own_pair_of_mixed_axis :
    ∃ table axis, Table.ofResult mixedResult storeCube plainOptions = .ok table ∧
      (shownOrdinals mixedResult plainOptions)[1]? = some [1] ∧
      rowMember? mixedResult [1] 0 = some (axis, storeMember "CA" 2 "State") ∧
      table.header = ["ID Country", "Country", "Units"] ∧
      table.rows[1]? = some [.null, .null, mixedResult.cell [0, 1]] := by
  have hcompute : ((Table.ofResult mixedResult storeCube plainOptions).toOption.any fun table =>
      decide (table.header = ["ID Country", "Country", "Units"] ∧
        table.rows[1]? = some [.null, .null, mixedResult.cell [0, 1]])) = true := by
    decide +kernel
  obtain ⟨table, htable, hrow⟩ := (Option.any_eq_true _ _).1 hcompute
  obtain ⟨hheader, hrow⟩ := of_decide_eq_true hrow
  exact ⟨table, _, toOption_eq_some_iff.1 htable, by decide +kernel, rfl, hheader, hrow⟩

end CubeQuery.Tidy
