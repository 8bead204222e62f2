import CubeQuery.Proofs.Tidy.Pairs

/-!
# Property columns

The column of a requested property stands between the pairs and the measures and reads from the
first axis of its hierarchy (`property_column`). Its level is one of the cube
(`PropertySpec.level?_of_parse`), and its value is that of the only member there, among those that it
is read from (`PropertySpec.valueFor_eq`).
-/

namespace CubeQuery

/-- The level on a path is found again under its own names. -/
theorem PropertyPath.level?_of_resolve {p : PropertyPath} {cube : Cube} {r : ResolvedLevel}
    (h : p.resolve cube = .ok r) : cube.level? r.ref = some r := by
  rw [resolve] at h
  split at h
  · cases h
  · rename_i d hd
    split at h
    · cases h
    · rename_i hierarchy hh
      split at h
      · cases h
      · rename_i l hl
        cases h
        obtain ⟨-, hdname⟩ := Cube.dimension?_spec hd
        obtain ⟨-, hlname⟩ := Hierarchy.level?_spec hl
        refine Cube.level?_eq_some.2 ⟨?_, Dimension.hierarchy?_of_hierarchyOrDefault? hh, ?_⟩
        · show cube.dimension? d.name = some d
          rw [hdname, hd]
        · show hierarchy.level? l.name = some l
          rw [hlname, hl]

namespace Tidy

/-! ## Requested properties -/

namespace PropertySpec

variable {cube : Cube} {drilled : List LevelRef} {text : String} {spec : PropertySpec}

/-- A property is declared on a level of the cube. -/
theorem level?_of_ofNames {names : List String} (h : ofNames cube names = .ok spec) :
    ∃ r, cube.level? spec.level = some r ∧ r.ref = spec.level := by
  rw [ofNames] at h
  split at h
  · cases h
  · obtain ⟨r, hr, h⟩ := bind_eq_ok.1 h
    split at h
    · cases h
      exact ⟨r, PropertyPath.level?_of_resolve hr, rfl⟩
    · cases h

theorem level?_of_parse (h : parse cube drilled text = .ok spec) :
    ∃ r, cube.level? spec.level = some r := by
  rw [parse] at h
  split at h
  · cases h
  · split at h
    · cases h
    · rename_i hnames
      split at h
      · cases h
        obtain ⟨r, hr, -⟩ := level?_of_ofNames hnames
        exact ⟨r, hr⟩
      · cases h

theorem valueFor_eq_of_find? {m p : Member} {ancestors : List Member}
    (h : (m :: ancestors).find? (·.level == spec.level) = some p) :
    spec.valueFor m ancestors = (p.property? spec.property).getD .null := by
  rw [valueFor, h, Option.bind_some]

/-- Of members at different depths the one on the level is read. -/
theorem valueFor_eq {m p : Member} {ancestors : List Member}
    (hdepths : ((m :: ancestors).map (·.depth)).Nodup) (hp : p ∈ m :: ancestors)
    (hlevel : p.level = spec.level)
    (hsame : ∀ other ∈ m :: ancestors, other.level = spec.level → other.depth = p.depth) :
    spec.valueFor m ancestors = (p.property? spec.property).getD .null := by
  apply valueFor_eq_of_find?
  exact find?_of_nodup hdepths hp (by simpa using hlevel)
    fun other hother htest => hsame other hother (by simpa using htest)

end PropertySpec

/-! ## Their columns -/

theorem getElem?_columns_property {r : CellResult} {cube : Cube} {options : Options}
    {cs : List Column} (h : columns r cube options = .ok cs) {j : Nat} {spec : PropertySpec}
    (hspec : options.properties[j]? = some spec) :
    ∃ position axis, r.drilldownAxes[position]? = some axis ∧
      axis.effectiveLevel?.any (·.sameHierarchy spec.level) = true ∧
      cs[cs.length - r.measures.length - options.properties.length + j]? =
        some (.member position (.property spec)) := by
  obtain ⟨properties, hproperties, h⟩ := bind_eq_ok.1 h
  cases h
  obtain ⟨c, hc, hcolumn⟩ := exists_of_getElem?_mapM hproperties hspec
  obtain ⟨position, axis, haxis, hsame, rfl⟩ := propertyColumn_eq_ok hcolumn
  refine ⟨position, axis, haxis, hsame, ?_⟩
  have hlength : options.properties.length = properties.length :=
    (mapM_eq_ok.1 hproperties).length_eq
  generalize allAxisColumns cube options.parents 0 r.drilldownAxes = pairs
  have hplace : (pairs ++ properties ++ measureColumns 0 r.measures).length - r.measures.length -
      options.properties.length + j = pairs.length + j := by
    rw [List.length_append, length_measureColumns, List.length_append, hlength]
    omega
  rw [hplace, List.append_assoc, List.getElem?_append_right (Nat.le_add_right _ _),
    Nat.add_sub_cancel_left]
  exact getElem?_append_of_some hc _

def propertyPlace (r : CellResult) (options : Options) (t : Table) : Nat :=
  t.header.length - r.measures.length - options.properties.length

/-- In a row the column of a property has its value for the member of one axis. -/
theorem property_column {r : CellResult} {cube : Cube} {options : Options} {table : Table}
    (h : Table.ofResult r cube options = .ok table) {i : Nat} {row : List Scalar}
    (hrow : table.rows[i]? = some row) {ordinals : List Nat}
    (hordinals : (shownOrdinals r options)[i]? = some ordinals) {j : Nat} {spec : PropertySpec}
    (hspec : options.properties[j]? = some spec) :
    ∃ position axis, r.drilldownAxes[position]? = some axis ∧
      axis.effectiveLevel?.any (·.sameHierarchy spec.level) = true ∧
      table.header[propertyPlace r options table + j]? = some spec.title ∧
      ∀ m, rowMember? r ordinals position = some (axis, m) →
        row[propertyPlace r options table + j]? = some (spec.valueFor m (axis.ancestorsOf m)) := by
  obtain ⟨cs, hcs, htable⟩ := ofResult_eq_ok.1 h
  obtain ⟨position, axis, haxis, hsame, hcolumn⟩ := getElem?_columns_property hcs hspec
  have hheader : table.header = cs.map (·.title) := by rw [htable]
  have hvalues : row = cs.map (Column.value r options.captions ordinals) := by
    rw [htable] at hrow
    exact eq_of_getElem?_columnRows hrow hordinals
  have hplace : propertyPlace r options table =
      cs.length - r.measures.length - options.properties.length := by
    rw [propertyPlace, hheader, List.length_map]
  refine ⟨position, axis, haxis, hsame, ?_, fun m hm => ?_⟩
  · rw [hplace, hheader, List.getElem?_map, hcolumn]
    rfl
  · rw [hplace, hvalues, List.getElem?_map, hcolumn]
    simp [Column.value, hm, Aspect.of]

end Tidy

end CubeQuery
