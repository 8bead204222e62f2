import CubeQuery.Proofs.Outcome
import CubeQuery.Proofs.Result.Nested
import CubeQuery.Proofs.Result.Readings

/-!
# Flattened cells

The nested cells of a result, flattened again, come in the order of the index tuples with the last axis
slowest. That is the order of dense cells, so that flattening gives back the dense values
(`flattened_nested_dense`).
-/

namespace CubeQuery

/-- The values inside arrays that are nested to a depth, from the first to the last; `none` if there is
something else than an array above the depth. -/
def Json.flattened : Nat → Json → Option (List Json)
  | 0, j => some [j]
  | depth + 1, .arr items => (items.mapM (flattened depth)).map (·.flatten)
  | _ + 1, _ => none

theorem flattened_nest (leaf : List Nat → Json) (sizes suffix : List Nat) :
    (nest leaf sizes suffix).flattened sizes.length =
      some ((readings sizes).map fun path => leaf (path.reverse ++ suffix)) := by
  induction sizes generalizing suffix with
  | nil => simp [nest, Json.flattened, readings]
  | cons size sizes ih =>
      have hitems : ((List.range size).map fun i => nest leaf sizes (i :: suffix)).mapM
            (Json.flattened sizes.length) =
          some ((List.range size).map fun i =>
            (readings sizes).map fun path => leaf (path.reverse ++ i :: suffix)) := by
        rw [List.mapM_map]
        exact mapM_eq_some_map fun i _ => ih (i :: suffix)
      rw [nest, List.length_cons, Json.flattened, hitems, Option.map_some, readings]
      simp [List.flatMap, List.map_flatten, Function.comp_def]

/-! ## Dense places -/

theorem stridesFrom_concat (stride : Nat) (shape : List Nat) (size : Nat) :
    stridesFrom stride (shape ++ [size]) = stridesFrom stride shape ++ [stride * shape.prod] := by
  induction shape generalizing stride with
  | nil => simp [stridesFrom]
  | cons first shape ih => simp [stridesFrom, ih, Nat.mul_assoc]

theorem length_stridesFrom (stride : Nat) (shape : List Nat) :
    (stridesFrom stride shape).length = shape.length := by
  induction shape generalizing stride with
  | nil => rfl
  | cons size shape ih => simp [stridesFrom, ih]

theorem denseOffset_concat {shape coordinates : List Nat} (hlength : coordinates.length = shape.length)
    (size i : Nat) :
    denseOffset (shape ++ [size]) (coordinates ++ [i]) =
      i * shape.prod + denseOffset shape coordinates := by
  have hstrides : coordinates.length = (strides shape).length := by
    rw [strides, length_stridesFrom, hlength]
  have hlast : strides (shape ++ [size]) = strides shape ++ [shape.prod] := by
    rw [strides, stridesFrom_concat, Nat.one_mul]
    rfl
  unfold denseOffset
  rw [hlast, List.zipWith_append hstrides]
  show (_ ++ [i * shape.prod]).sum = i * shape.prod + (List.zipWith _ _ _).sum
  rw [List.sum_append, List.sum_singleton, Nat.add_comm]

/-- The place of a cell is the number that its coordinates make, last axis first. -/
theorem denseOffset_reverse {sizes path : List Nat} (hlength : path.length = sizes.length) :
    denseOffset sizes.reverse path.reverse = placeOf sizes path := by
  induction sizes generalizing path with
  | nil =>
      cases path with
      | nil => rfl
      | cons i path => simp at hlength
  | cons size sizes ih =>
      cases path with
      | nil => simp at hlength
      | cons i path =>
          have hrest : path.length = sizes.length := by simpa using hlength
          rw [List.reverse_cons, List.reverse_cons, denseOffset_concat (by simpa using hrest), ih hrest,
            List.prod_reverse, placeOf, readingCount_eq_prod]

/-- The flattened cells of a dense result, place by place. -/
theorem CellResult.flattened_nested {r : CellResult} {values : List Scalar}
    (hdense : r.cells = .dense values) (leaf : Scalar → Json) :
    (r.nested leaf).flattened r.axes.length =
      some ((List.range r.shape.prod).map fun place =>
        leaf (values.getD (place % UInt64.size) .null)) := by
  have hdepth : r.shape.reverse.length = r.axes.length := by simp [shape]
  rw [nested_eq, ← hdepth, flattened_nest, readings_eq_map, readingCount_eq_prod, List.prod_reverse,
    List.map_map]
  congr 1
  refine List.map_congr_left fun place hplace => ?_
  have hnumeral : IsNumeral r.shape.reverse (digitsOf r.shape.reverse place) place := by
    apply isNumeral_digitsOf
    rw [readingCount_eq_prod, List.prod_reverse]
    exact List.mem_range.1 hplace
  have hoffset := denseOffset_reverse hnumeral.digits_lt.length_eq
  rw [List.reverse_reverse, hnumeral.place_eq] at hoffset
  simp only [Function.comp_def, List.append_nil, cell, hdense, densePlace, hoffset]

/-! ## Dense values -/

/-- The values cut to a length, or filled up to it with nulls. -/
def fitted (length : Nat) (values : List Scalar) : List Scalar :=
  values.take length ++ List.replicate (length - values.length) .null

theorem length_fitted (length : Nat) (values : List Scalar) :
    (fitted length values).length = length := by
  rw [fitted, List.length_append, List.length_take, List.length_replicate]
  omega

theorem getElem?_fitted {length i : Nat} (values : List Scalar) (hi : i < length) :
    (fitted length values)[i]? = some (values.getD i .null) := by
  rw [fitted, List.getD_eq_getElem?_getD]
  by_cases hvalue : i < values.length
  · have htaken : i < (values.take length).length := by
      rw [List.length_take]
      omega
    rw [List.getElem?_append_left htaken, List.getElem?_take_of_lt hi, List.getElem?_eq_getElem hvalue,
      Option.getD_some]
  · have htaken : (values.take length).length = values.length := by
      rw [List.length_take]
      omega
    rw [List.getElem?_append_right (by omega), htaken, List.getElem?_replicate_of_lt (by omega),
      List.getElem?_eq_none (by omega), Option.getD_none]

/-- The nested cells of a dense result, flattened by one level of arrays for each axis, are as many as
there are cells, and they are the dense values in their order, with nulls for those that are missing and
without those that are too many. Places are words: the values are the same at every place that a word
counts, and so they are all the same where the cells are no more than the words. -/
theorem flattened_nested_dense (r : CellResult) (values : List Scalar)
    (hdense : r.cells = .dense values) :
    ∃ leaves, (r.nested (·.json)).flattened r.axes.length = some leaves ∧
      leaves.length = r.shape.prod ∧
      (∀ place : UInt64,
        leaves[place.toNat]? = ((fitted r.shape.prod values).map (·.json))[place.toNat]?) ∧
      (r.shape.prod ≤ UInt64.size → leaves = (fitted r.shape.prod values).map (·.json)) := by
  have hplaces : ∀ place < UInt64.size,
      ((List.range r.shape.prod).map fun place =>
          (values.getD (place % UInt64.size) .null).json)[place]? =
        ((fitted r.shape.prod values).map (·.json))[place]? := by
    intro place hword
    rw [List.getElem?_map, List.getElem?_map]
    by_cases hplace : place < r.shape.prod
    · rw [List.getElem?_range hplace, getElem?_fitted values hplace, Option.map_some, Option.map_some,
        Nat.mod_eq_of_lt hword]
    · rw [List.getElem?_eq_none (by simpa using hplace),
        List.getElem?_eq_none (by simpa [length_fitted] using hplace)]
      rfl
  refine ⟨_, CellResult.flattened_nested hdense (·.json), by simp,
    fun place => hplaces _ place.toNat_lt, ?_⟩
  intro hcount
  apply List.ext_getElem?
  intro place
  by_cases hword : place < UInt64.size
  · exact hplaces place hword
  · have hrange : r.shape.prod ≤ place := by omega
    rw [List.getElem?_eq_none (by simpa using hrange),
      List.getElem?_eq_none (by simpa [length_fitted] using hrange)]

/-- Two measures over three members, with the values of the last member missing. -/
theorem flattened_nested_dense_short :
    let axis (names : List String) := ResultAxis.ofMembers (names.map fun n => Member.ofMeasure n n n)
    let r : CellResult := ⟨[axis ["units", "sales"], axis ["a", "b", "c"]],
      .dense [.int 3, .null, .int 5, .int 7], none⟩
    r.cells = .dense [.int 3, .null, .int 5, .int 7] ∧
      (r.nested (·.json)).flattened 2 = some [.int 3, .null, .int 5, .int 7, .null, .null] := by
  intro axis r
  obtain ⟨leaves, hleaves, -, -, hall⟩ := flattened_nested_dense r _ rfl
  have hfitted : leaves = [.int 3, .null, .int 5, .int 7, .null, .null] := hall (by decide)
  rw [← hfitted]
  exact ⟨rfl, hleaves⟩

end CubeQuery
