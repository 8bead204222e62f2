import CubeQuery.Proofs.Result.Flattened
import CubeQuery.Proofs.Tidy.Keyed

/-!
# Dense places

The cells in range and the offsets below their number belong to each other one to one, and the
coordinates of a cell are read off its offset (`coordinatesAt`). Places are counted in words, which start
again at 2 ^ 64; whether they do so at each product and each sum or once at the end makes no difference
(`densePlace_eq_toNat`). While there are fewer than 2 ^ 64 cells, no number on the way to a place comes so
far (`dense_places_fit_words`).
-/

namespace CubeQuery

/-! ## The cell at an offset -/

/-- The coordinates of the cell at an offset, the digits of it from the least on. -/
def coordinatesAt (shape : List Nat) (offset : Nat) : List Nat :=
  (digitsOf shape.reverse offset).reverse

theorem denseOffset_eq_placeOf {shape coordinates : List Nat}
    (hlength : coordinates.length = shape.length) :
    denseOffset shape coordinates = placeOf shape.reverse coordinates.reverse := by
  have hreversed : coordinates.reverse.length = shape.reverse.length := by simpa using hlength
  simpa using denseOffset_reverse hreversed

theorem coordinatesAt_denseOffset {shape coordinates : List Nat}
    (h : List.Forall₂ (· < ·) coordinates shape) :
    coordinatesAt shape (denseOffset shape coordinates) = coordinates := by
  rw [coordinatesAt, denseOffset_eq_placeOf h.length_eq,
    digitsOf_placeOf (List.forall₂_reverse_iff.2 h), List.reverse_reverse]

theorem isNumeral_coordinatesAt {shape : List Nat} {offset : Nat} (h : offset < shape.prod) :
    IsNumeral shape.reverse (coordinatesAt shape offset).reverse offset := by
  rw [coordinatesAt, List.reverse_reverse]
  apply isNumeral_digitsOf
  rwa [readingCount_eq_prod, List.prod_reverse]

theorem coordinatesAt_lt {shape : List Nat} {offset : Nat} (h : offset < shape.prod) :
    List.Forall₂ (· < ·) (coordinatesAt shape offset) shape :=
  List.forall₂_reverse_iff.1 (isNumeral_coordinatesAt h).digits_lt

theorem denseOffset_coordinatesAt {shape : List Nat} {offset : Nat} (h : offset < shape.prod) :
    denseOffset shape (coordinatesAt shape offset) = offset := by
  rw [denseOffset_eq_placeOf (coordinatesAt_lt h).length_eq]
  exact (isNumeral_coordinatesAt h).place_eq

/-- Each cell in range has an offset of its own, and each number below the number of cells is one. -/
theorem bijOn_denseOffset (shape : List Nat) :
    Set.BijOn (denseOffset shape) {coordinates | List.Forall₂ (· < ·) coordinates shape}
      (Set.Iio shape.prod) := by
  have hinverse : Set.InvOn (coordinatesAt shape) (denseOffset shape)
      {coordinates | List.Forall₂ (· < ·) coordinates shape} (Set.Iio shape.prod) :=
    ⟨fun _ => coordinatesAt_denseOffset, fun _ => denseOffset_coordinatesAt⟩
  exact hinverse.bijOn (fun _ => denseOffset_lt) fun _ => coordinatesAt_lt

example : (List.range 6).map (coordinatesAt [2, 3]) =
    [[0, 0], [1, 0], [0, 1], [1, 1], [0, 2], [1, 2]] := by
  decide

/-! ## Counting in words -/

/-- The distances between neighbouring cells, each product of them a word. -/
def wordStridesFrom (stride : UInt64) : List Nat → List UInt64
  | [] => []
  | size :: rest => stride :: wordStridesFrom (stride * .ofNat size) rest

def addWordOffset (sum : UInt64) : List Nat → List UInt64 → UInt64
  | c :: coordinates, s :: strides => addWordOffset (sum + .ofNat c * s) coordinates strides
  | _, _ => sum

/-- The place of a cell as words count it. -/
def wordPlace (shape coordinates : List Nat) : UInt64 :=
  addWordOffset 0 coordinates (wordStridesFrom 1 shape)

theorem wordStridesFrom_ofNat (stride : Nat) (shape : List Nat) :
    wordStridesFrom (.ofNat stride) shape = (stridesFrom stride shape).map .ofNat := by
  induction shape generalizing stride with
  | nil => rfl
  | cons size shape ih =>
      rw [wordStridesFrom, stridesFrom, List.map_cons, ← UInt64.ofNat_mul, ih]

theorem addWordOffset_ofNat (sum : Nat) (coordinates strides : List Nat) :
    addWordOffset (.ofNat sum) coordinates (strides.map .ofNat) =
      .ofNat (CellIndex.addOffset sum coordinates strides) := by
  induction coordinates generalizing sum strides with
  | nil => rfl
  | cons c coordinates ih =>
      cases strides with
      | nil => rfl
      | cons s strides =>
          rw [List.map_cons, addWordOffset, CellIndex.addOffset, ← UInt64.ofNat_mul,
            ← UInt64.ofNat_add, ih]

/-- Cutting each product and each sum to a word comes to the same place as cutting the whole once. -/
theorem densePlace_eq_toNat (shape coordinates : List Nat) :
    densePlace shape coordinates = (wordPlace shape coordinates).toNat := by
  have hstrides : wordStridesFrom 1 shape = (strides shape).map .ofNat :=
    wordStridesFrom_ofNat 1 shape
  have hsum : addWordOffset 0 coordinates ((strides shape).map .ofNat) =
      .ofNat (CellIndex.addOffset 0 coordinates (strides shape)) :=
    addWordOffset_ofNat 0 coordinates (strides shape)
  rw [wordPlace, hstrides, hsum, CellIndex.addOffset_eq, Nat.zero_add, UInt64.toNat_ofNat']
  rfl

/-! ## The numbers on the way to a place -/

/-- A count that never goes down does not pass its end on the way. -/
theorem le_foldl_of_mem_scanl {f : Nat → Nat → Nat} {numbers : List Nat}
    (hgrows : ∀ n ∈ numbers, ∀ count, count ≤ f count n) {start count : Nat}
    (h : count ∈ numbers.scanl f start) : count ≤ numbers.foldl f start := by
  induction numbers generalizing start count with
  | nil =>
      have hstart : count = start := by simpa using h
      exact hstart.le
  | cons n numbers ih =>
      have hrest : ∀ count ∈ numbers.scanl f (f start n), count ≤ numbers.foldl f (f start n) :=
        fun _ => ih fun m hm => hgrows m (List.mem_cons_of_mem n hm)
      rw [List.scanl_cons] at h
      rcases List.mem_cons.1 h with rfl | hlater
      -- The first count is below the second, which is among the rest.
      · have hnext : f count n ∈ numbers.scanl f (f count n) := by
          cases numbers <;> simp
        exact (hgrows n List.mem_cons_self count).trans (hrest _ hnext)
      · exact hrest count hlater

/-- The stride is the product of the sizes before an axis; behind the last axis it is that of all. -/
theorem scanl_mul_eq (stride : Nat) (shape : List Nat) :
    shape.scanl (· * ·) stride = stridesFrom stride shape ++ [stride * shape.prod] := by
  induction shape generalizing stride with
  | nil => simp [stridesFrom]
  | cons size shape ih =>
      rw [List.scanl_cons, ih, stridesFrom, List.prod_cons, Nat.mul_assoc, List.cons_append]

theorem le_prod_of_mem_scanl {shape : List Nat} (hsizes : 0 ∉ shape) {product : Nat}
    (h : product ∈ shape.scanl (· * ·) 1) : product ≤ shape.prod := by
  have hgrows : ∀ size ∈ shape, ∀ count, count ≤ count * size := by
    intro size hsize count
    have hpos : 0 < size := Nat.pos_of_ne_zero (ne_of_mem_of_not_mem hsize hsizes)
    exact Nat.le_mul_of_pos_right count hpos
  rw [List.prod_eq_foldl]
  exact le_foldl_of_mem_scanl hgrows h

theorem le_denseOffset_of_mem_scanl {shape coordinates : List Nat} {sum : Nat}
    (h : sum ∈ (List.zipWith (· * ·) coordinates (strides shape)).scanl (· + ·) 0) :
    sum ≤ denseOffset shape coordinates := by
  have hgrows : ∀ product ∈ List.zipWith (· * ·) coordinates (strides shape),
      ∀ count, count ≤ count + product :=
    fun product _ count => Nat.le_add_right count product
  show sum ≤ (List.zipWith (· * ·) coordinates (strides shape)).sum
  rw [List.sum_eq_foldl]
  exact le_foldl_of_mem_scanl hgrows h

/-- Where every axis has members and the cells are fewer than 2 ^ 64, all numbers on the way to a place
are words: the strides, and the product of the sizes as it is carried past the last axis; for
coordinates in range also their products with the strides, and the sums of these from the first axis
on, so that words count the offset itself. The places of the cells in range are the numbers below the
number of cells, each the place of one cell. -/
theorem dense_places_fit_words (r : CellResult) (hmembers : ∀ axis ∈ r.axes, axis.members ≠ [])
    (hcount : r.shape.prod < UInt64.size) :
    (∀ stride ∈ strides r.shape, stride < UInt64.size) ∧
      (∀ product ∈ r.shape.scanl (· * ·) 1, product < UInt64.size) ∧
      (∀ coordinates, List.Forall₂ (· < ·) coordinates r.shape →
        (∀ product ∈ List.zipWith (· * ·) coordinates (strides r.shape), product < UInt64.size) ∧
        (∀ sum ∈ (List.zipWith (· * ·) coordinates (strides r.shape)).scanl (· + ·) 0,
          sum < UInt64.size) ∧
        (wordPlace r.shape coordinates).toNat = denseOffset r.shape coordinates) ∧
      Set.BijOn (densePlace r.shape) {coordinates | List.Forall₂ (· < ·) coordinates r.shape}
        (Set.Iio r.shape.prod) := by
  have hsizes : 0 ∉ r.shape := by
    simpa [CellResult.shape] using hmembers
  have hrunning : ∀ product ∈ r.shape.scanl (· * ·) 1, product < UInt64.size :=
    fun _ hproduct => (le_prod_of_mem_scanl hsizes hproduct).trans_lt hcount
  have hexact : ∀ coordinates, List.Forall₂ (· < ·) coordinates r.shape →
      densePlace r.shape coordinates = denseOffset r.shape coordinates :=
    fun _ hrange => densePlace_eq_denseOffset hrange hcount.le
  refine ⟨?_, hrunning, ?_, ?_⟩
  · intro stride hstride
    -- The strides are the products but for the last.
    apply hrunning
    rw [scanl_mul_eq]
    exact List.mem_append_left _ hstride
  · intro coordinates hrange
    have hoffset : denseOffset r.shape coordinates < UInt64.size :=
      (denseOffset_lt hrange).trans hcount
    refine ⟨?_, ?_, ?_⟩
    · intro product hproduct
      have hle : product ≤ denseOffset r.shape coordinates := List.le_sum_of_mem hproduct
      exact hle.trans_lt hoffset
    · intro sum hsum
      exact (le_denseOffset_of_mem_scanl hsum).trans_lt hoffset
    · rw [← densePlace_eq_toNat, hexact coordinates hrange]
  · exact (bijOn_denseOffset r.shape).congr fun coordinates hrange => (hexact coordinates hrange).symm

/-- With one cell fewer than there are words, the last cell alone has the place 2 ^ 64 - 2. -/
theorem dense_places_fit_words_last_cell :
    let axis (size : Nat) := ResultAxis.ofMembers (List.replicate size (Member.ofMeasure "m" "m" "m"))
    let sizes := [3, 5, 17, 257, 641, 65537, 6700417]
    let r : CellResult := ⟨sizes.map axis, .dense [], none⟩
    (∀ axis ∈ r.axes, axis.members ≠ []) ∧ r.shape = sizes ∧ r.shape.prod = 2 ^ 64 - 1 ∧
      (∀ product ∈ r.shape.scanl (· * ·) 1, product < UInt64.size) ∧
      ∀ coordinates, List.Forall₂ (· < ·) coordinates r.shape →
        (densePlace r.shape coordinates = 2 ^ 64 - 2 ↔
          coordinates = [2, 4, 16, 256, 640, 65536, 6700416]) := by
  intro axis sizes r
  have hlength : ∀ size, (axis size).members.length = size := fun _ => List.length_replicate
  have hmembers : ∀ axis ∈ r.axes, axis.members ≠ [] := by
    intro _ hmem hnil
    obtain ⟨size, hsize, rfl⟩ := List.mem_map.1 hmem
    have hzero : size = 0 := by rw [← hlength size, hnil, List.length_nil]
    have hpos : ∀ size ∈ sizes, size ≠ 0 := by decide
    exact hpos size hsize hzero
  have hshape : r.shape = sizes := by
    have hid : (fun a : ResultAxis => a.members.length) ∘ axis = id := funext hlength
    rw [CellResult.shape, List.map_map, hid, List.map_id]
  have hcount : r.shape.prod = 2 ^ 64 - 1 := by
    rw [hshape]
    decide
  have hwords : r.shape.prod < UInt64.size := by
    rw [hcount]
    decide
  obtain ⟨-, hrunning, -, hplaces⟩ := dense_places_fit_words r hmembers hwords
  refine ⟨hmembers, hshape, hcount, hrunning, fun coordinates hrange => ?_⟩
  have hlast : List.Forall₂ (· < ·) [2, 4, 16, 256, 640, 65536, 6700416] r.shape := by
    rw [hshape]
    decide
  have hplace : densePlace r.shape [2, 4, 16, 256, 640, 65536, 6700416] = 2 ^ 64 - 2 := by
    rw [hshape]
    decide
  rw [← hplace]
  exact hplaces.injOn.eq_iff hrange hlast

end CubeQuery
