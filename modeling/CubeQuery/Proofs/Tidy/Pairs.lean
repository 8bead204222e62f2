import CubeQuery.Proofs.Cube.Levels
import CubeQuery.Proofs.Tidy.Cells

/-!
# Column pairs of drilldown axes

With parents shown an axis has a key and a label column for every depth from its first shown depth to
that of its level, and the axes follow one another (`getElem?_columns_pair`).
-/

namespace CubeQuery.Tidy

/-! ## Where pairs stand -/

def firstShown (r : ResolvedLevel) : Nat := min r.hierarchy.firstRealDepth r.level.depth

def pairCount (cube : Cube) (a : ResultAxis) : Nat :=
  match a.effectiveLevel?.bind cube.level? with
  | some r => r.level.depth + 1 - firstShown r
  | none => 1

def pairsBefore (cube : Cube) (axes : List ResultAxis) (position : Nat) : Nat :=
  ((axes.take position).map (pairCount cube)).sum

/-- The place of the key column of a depth; the label column is the next one. -/
def keyPlace (cube : Cube) (axes : List ResultAxis) (position : Nat) (r : ResolvedLevel)
    (depth : Nat) : Nat :=
  2 * (pairsBefore cube axes position + (depth - firstShown r))

def shownCount (cube : Cube) (parents : Bool) (a : ResultAxis) : Nat :=
  (shownDepths cube parents 0 a).length

def shownBefore (cube : Cube) (parents : Bool) (axes : List ResultAxis) (position : Nat) : Nat :=
  ((axes.take position).map (shownCount cube parents)).sum

/-! ## Pairs in a list -/

section FlatPairs

variable {α β : Type} (f g : α → β) (as : List α)

theorem length_flatMap_pair : (as.flatMap fun a => [f a, g a]).length = 2 * as.length := by
  induction as with
  | nil => rfl
  | cons a as ih =>
      rw [List.flatMap_cons, List.length_append, ih, List.length_cons]
      simp only [List.length_cons, List.length_nil]
      omega

theorem getElem?_flatMap_pair (i : Nat) :
    (as.flatMap fun a => [f a, g a])[2 * i]? = (as[i]?).map f ∧
      (as.flatMap fun a => [f a, g a])[2 * i + 1]? = (as[i]?).map g := by
  induction as generalizing i with
  | nil => simp
  | cons a as ih =>
      rw [List.flatMap_cons]
      cases i with
      | zero => exact ⟨rfl, rfl⟩
      | succ i => exact ih i

end FlatPairs

theorem getElem?_append_of_some {α : Type} {as : List α} {i : Nat} {a : α} (h : as[i]? = some a)
    (others : List α) : (as ++ others)[i]? = some a := by
  obtain ⟨hi, _⟩ := List.getElem?_eq_some_iff.1 h
  rw [List.getElem?_append_left hi, h]

/-! ## Columns of one axis -/

section Columns

variable {cube : Cube}

theorem length_shownDepths (parents : Bool) (position : Nat) (a : ResultAxis) :
    (shownDepths cube parents position a).length = shownCount cube parents a := by
  cases hlevel : a.effectiveLevel?.bind cube.level? with
  | none => simp only [shownCount, shownDepths, hlevel, List.length_singleton]
  | some r => simp only [shownCount, shownDepths, hlevel]

theorem length_axisColumns (parents : Bool) (position : Nat) (a : ResultAxis) :
    (axisColumns cube parents position a).length = 2 * shownCount cube parents a := by
  rw [axisColumns, ← length_shownDepths parents position]
  exact length_flatMap_pair _ _ _

theorem shownCount_true : shownCount cube true = pairCount cube := by
  funext a
  cases hlevel : a.effectiveLevel?.bind cube.level? with
  | none => simp only [shownCount, shownDepths, pairCount, hlevel, List.length_singleton]
  | some r =>
      simp only [shownCount, shownDepths, pairCount, hlevel, levelTitles, List.length_map,
        List.length_range', if_pos, firstShown]

def depthTitle (h : Hierarchy) (depth : Nat) : String :=
  ((h.levelAt? depth).map (·.caption)).getD ""

theorem getElem?_shownDepths {position depth : Nat} {a : ResultAxis} {r : ResolvedLevel}
    (hlevel : a.effectiveLevel?.bind cube.level? = some r) (hlow : firstShown r ≤ depth)
    (hhigh : depth ≤ r.level.depth) :
    (shownDepths cube true position a)[depth - firstShown r]? =
      some (depth, depthTitle r.hierarchy depth) := by
  simp only [shownDepths, hlevel, if_pos, levelTitles, List.getElem?_map]
  rw [← firstShown, List.getElem?_range' (by omega)]
  have hdepth : firstShown r + 1 * (depth - firstShown r) = depth := by omega
  rw [hdepth]
  rfl

theorem getElem?_axisColumns (position : Nat) {depth : Nat} {a : ResultAxis} {r : ResolvedLevel}
    (hlevel : a.effectiveLevel?.bind cube.level? = some r) (hlow : firstShown r ≤ depth)
    (hhigh : depth ≤ r.level.depth) :
    (axisColumns cube true position a)[2 * (depth - firstShown r)]? =
        some (.member position (.key depth (depthTitle r.hierarchy depth))) ∧
      (axisColumns cube true position a)[2 * (depth - firstShown r) + 1]? =
        some (.member position (.label depth (depthTitle r.hierarchy depth))) := by
  have hpair := getElem?_flatMap_pair
    (fun s : Nat × String => Column.member position (.key s.1 s.2))
    (fun s => .member position (.label s.1 s.2))
    (shownDepths cube true position a) (depth - firstShown r)
  rw [getElem?_shownDepths hlevel hlow hhigh] at hpair
  exact hpair

/-! ## Columns of all axes -/

theorem getElem?_allAxisColumns {parents : Bool} {axes : List ResultAxis} {first position : Nat}
    {a : ResultAxis} (ha : axes[position]? = some a) {number : Nat}
    (hnumber : first + position = number) {j : Nat} {c : Column}
    (hc : (axisColumns cube parents number a)[j]? = some c) :
    (allAxisColumns cube parents first axes)[2 * shownBefore cube parents axes position + j]? =
      some c := by
  induction axes generalizing first position with
  | nil => cases ha
  | cons b axes ih =>
      rw [allAxisColumns]
      cases position with
      | zero =>
          obtain rfl : b = a := by simpa using ha
          obtain rfl : first = number := hnumber
          have hplace : 2 * shownBefore cube parents (b :: axes) 0 + j = j := by simp [shownBefore]
          rw [hplace]
          exact getElem?_append_of_some hc _
      | succ position =>
          have hplace : 2 * shownBefore cube parents (b :: axes) (position + 1) + j =
              (axisColumns cube parents first b).length +
                (2 * shownBefore cube parents axes position + j) := by
            rw [length_axisColumns, shownBefore, shownBefore, List.take_succ_cons, List.map_cons,
              List.sum_cons]
            omega
          have hnext : first + 1 + position = number := by omega
          rw [hplace, List.getElem?_append_right (Nat.le_add_right _ _), Nat.add_sub_cancel_left]
          exact ih ha hnext

/-- The columns of an axis stand behind those of the axes before it. -/
theorem getElem?_columns {r : CellResult} {options : Options} {cs : List Column}
    (h : columns r cube options = .ok cs) {position : Nat} {a : ResultAxis}
    (ha : r.drilldownAxes[position]? = some a) {j : Nat} {c : Column}
    (hc : (axisColumns cube options.parents position a)[j]? = some c) :
    cs[2 * shownBefore cube options.parents r.drilldownAxes position + j]? = some c := by
  obtain ⟨properties, -, h⟩ := bind_eq_ok.1 h
  cases h
  rw [List.append_assoc]
  exact getElem?_append_of_some (getElem?_allAxisColumns ha (Nat.zero_add position) hc) _

theorem getElem?_columns_pair {r : CellResult} {options : Options} {cs : List Column}
    (h : columns r cube options = .ok cs) (hparents : options.parents = true) {position : Nat}
    {a : ResultAxis} (ha : r.drilldownAxes[position]? = some a) {level : ResolvedLevel}
    (hlevel : a.effectiveLevel?.bind cube.level? = some level) {depth : Nat}
    (hlow : firstShown level ≤ depth) (hhigh : depth ≤ level.level.depth) :
    cs[keyPlace cube r.drilldownAxes position level depth]? =
        some (.member position (.key depth (depthTitle level.hierarchy depth))) ∧
      cs[keyPlace cube r.drilldownAxes position level depth + 1]? =
        some (.member position (.label depth (depthTitle level.hierarchy depth))) := by
  have hplace : keyPlace cube r.drilldownAxes position level depth =
      2 * shownBefore cube options.parents r.drilldownAxes position +
        2 * (depth - firstShown level) := by
    rw [keyPlace, Nat.mul_add, pairsBefore, shownBefore, hparents, shownCount_true]
  obtain ⟨hkey, hlabel⟩ := getElem?_axisColumns position hlevel hlow hhigh
  rw [← hparents] at hkey hlabel
  rw [hplace, Nat.add_assoc]
  exact ⟨getElem?_columns h ha hkey, getElem?_columns h ha hlabel⟩

end Columns

/-! ## Rows -/

/-- The table has a key and a label under one title, with these values in a row. -/
structure Table.PairAt (t : Table) (row : List Scalar) (place : Nat) (title : String)
    (key label : Scalar) : Prop where
  keyTitle : t.header[place]? = some ("ID " ++ title)
  labelTitle : t.header[place + 1]? = some title
  key : row[place]? = some key
  label : row[place + 1]? = some label

theorem exists_ordinals {r : CellResult} {cube : Cube} {options : Options} {table : Table}
    (htidy : Table.ofResult r cube options = .ok table) {i : Nat} {row : List Scalar}
    (hrow : table.rows[i]? = some row) :
    ∃ ordinals, (shownOrdinals r options)[i]? = some ordinals := by
  obtain ⟨cs, _, rfl⟩ := ofResult_eq_ok.1 htidy
  obtain ⟨ordinals, hordinals, _⟩ := Option.map_eq_some_iff.1 ((List.getElem?_map ..).symm.trans hrow)
  exact ⟨ordinals, hordinals⟩

theorem eq_of_getElem?_columnRows {r : CellResult} {options : Options} {cs : List Column} {i : Nat}
    {row : List Scalar} (hrow : (columnRows r options cs)[i]? = some row) {ordinals : List Nat}
    (hordinals : (shownOrdinals r options)[i]? = some ordinals) :
    row = cs.map (Column.value r options.captions ordinals) := by
  simp only [columnRows, List.getElem?_map, hordinals, Option.map_some, Option.some.injEq] at hrow
  exact hrow.symm

theorem exists_rowMember? {r : CellResult} {options : Options} {ordinals : List Nat}
    (h : ordinals ∈ shownOrdinals r options) {position : Nat} {a : ResultAxis}
    (ha : r.drilldownAxes[position]? = some a) :
    ∃ m ∈ a.members, rowMember? r ordinals position = some (a, m) := by
  have hmem : ordinals ∈ readings (rowShape r) := mem_of_mem_rows (List.mem_of_mem_filter h)
  obtain ⟨hlength, hlt⟩ := List.forall₂_iff_get.1 (mem_readings.1 hmem)
  obtain ⟨hposition, rfl⟩ := List.getElem?_eq_some_iff.1 ha
  have hshape : position < (rowShape r).length := by rwa [rowShape, List.length_map]
  have hordinal : position < ordinals.length := by rwa [hlength]
  have hbound : ordinals[position] < r.drilldownAxes[position].members.length := by
    have hlt := hlt position hordinal hshape
    simpa [rowShape] using hlt
  refine ⟨_, List.getElem_mem hbound, ?_⟩
  simp [rowMember?, ha, List.getElem?_eq_getElem hordinal, List.getElem?_eq_getElem hbound]

/-- A member or an ancestor is found by its depth where no two of them have one depth. -/
theorem memberAtDepth?_eq {m p : Member} {ancestors : List Member}
    (hdepths : ((m :: ancestors).map (·.depth)).Nodup) (hp : p ∈ m :: ancestors) :
    memberAtDepth? m ancestors p.depth = some p := by
  have hfind : memberAtDepth? m ancestors p.depth =
      (m :: ancestors).find? (·.depth == p.depth) := by
    by_cases hm : m.depth = p.depth
    · rw [memberAtDepth?, if_pos hm, List.find?_cons_of_pos (by simpa using hm)]
    · rw [memberAtDepth?, if_neg hm, List.find?_cons_of_neg (by simpa using hm)]
  rw [hfind]
  exact find?_of_nodup hdepths hp (beq_self_eq_true _) fun _ _ => eq_of_beq

end CubeQuery.Tidy
