import Mathlib
import CubeQuery.Result.Odometer

/-!
# Index tuples as numbers

The tuple at a place of the order is made of the digits of the place, in the mixed radix of the sizes
and with the last size for the last digit (`getElem?_readings`).
-/

namespace CubeQuery

/-- The number that digits stand for; a digit counts as many as there are tuples behind it. -/
def placeOf : List Nat → List Nat → Nat
  | _ :: shape, i :: rest => i * readingCount shape + placeOf shape rest
  | _, _ => 0

/-- The tuple is the place written in the mixed radix of the shape. -/
structure IsNumeral (shape tuple : List Nat) (place : Nat) : Prop where
  digits_lt : List.Forall₂ (· < ·) tuple shape
  place_eq : placeOf shape tuple = place

def digitsOf : List Nat → Nat → List Nat
  | [], _ => []
  | _ :: shape, n => n / readingCount shape :: digitsOf shape (n % readingCount shape)

theorem readingCount_eq_prod (shape : List Nat) : readingCount shape = shape.prod := by
  induction shape with
  | nil => rfl
  | cons size shape ih => rw [readingCount, List.prod_cons, ih]

theorem placeOf_lt {shape tuple : List Nat} (h : List.Forall₂ (· < ·) tuple shape) :
    placeOf shape tuple < readingCount shape := by
  induction h with
  | nil => simp [placeOf, readingCount]
  | @cons i size tuple shape hi htuple ih =>
      have hblock : (i + 1) * readingCount shape ≤ size * readingCount shape :=
        Nat.mul_le_mul_right _ hi
      rw [Nat.add_mul, Nat.one_mul] at hblock
      rw [placeOf, readingCount]
      omega

/-- A multiple and a smaller rest are taken apart again. -/
theorem div_mod_of_lt {i j n : Nat} (h : j < n) : (i * n + j) / n = i ∧ (i * n + j) % n = j := by
  constructor
  · rw [Nat.mul_comm, Nat.mul_add_div (by omega), Nat.div_eq_of_lt h, Nat.add_zero]
  · rw [Nat.mul_comm, Nat.mul_add_mod, Nat.mod_eq_of_lt h]

theorem digitsOf_placeOf {shape tuple : List Nat} (h : List.Forall₂ (· < ·) tuple shape) :
    digitsOf shape (placeOf shape tuple) = tuple := by
  induction h with
  | nil => rfl
  | @cons i size tuple shape hi htuple ih =>
      obtain ⟨hdiv, hmod⟩ := div_mod_of_lt (i := i) (placeOf_lt htuple)
      rw [placeOf, digitsOf, hdiv, hmod, ih]

theorem isNumeral_digitsOf {shape : List Nat} {n : Nat} (h : n < readingCount shape) :
    IsNumeral shape (digitsOf shape n) n := by
  induction shape generalizing n with
  | nil =>
      have hn : n = 0 := by simpa [readingCount] using h
      exact ⟨.nil, by simp [hn, placeOf]⟩
  | cons size shape ih =>
      rw [readingCount] at h
      have hpos : 0 < readingCount shape := Nat.pos_of_mul_pos_left (Nat.zero_lt_of_lt h)
      have htail := ih (Nat.mod_lt n hpos)
      constructor
      · exact .cons ((Nat.div_lt_iff_lt_mul hpos).2 h) htail.digits_lt
      · rw [digitsOf, placeOf, htail.place_eq, Nat.mul_comm]
        exact Nat.div_add_mod n _

/-! ## The order of tuples -/

/-- Counting below a product is counting below one factor for each number below the other. -/
theorem range_mul (m n : Nat) :
    List.range (m * n) = (List.range m).flatMap fun i => (List.range n).map (i * n + ·) := by
  induction m with
  | zero => simp
  | succ m ih =>
      rw [Nat.succ_mul, List.range_add, ih, List.range_succ, List.flatMap_append,
        List.flatMap_singleton]

theorem readings_eq_map (shape : List Nat) :
    readings shape = (List.range (readingCount shape)).map (digitsOf shape) := by
  induction shape with
  | nil => simp [readings, readingCount, digitsOf]
  | cons size shape ih =>
      simp only [readings, readingCount, range_mul, List.map_flatMap, List.map_map]
      congr 1
      funext i
      rw [ih, List.map_map]
      refine List.map_congr_left fun j hj => ?_
      obtain ⟨hdiv, hmod⟩ := div_mod_of_lt (i := i) (List.mem_range.1 hj)
      simp [digitsOf, hdiv, hmod]

/-- The tuple at a place is the place written in the mixed radix of the shape. -/
theorem getElem?_readings {shape tuple : List Nat} {place : Nat} :
    (readings shape)[place]? = some tuple ↔ IsNumeral shape tuple place := by
  rw [readings_eq_map, List.getElem?_map]
  constructor
  · intro h
    obtain ⟨n, hn, rfl⟩ := Option.map_eq_some_iff.1 h
    obtain ⟨hplace, rfl⟩ := List.getElem?_eq_some_iff.1 hn
    rw [List.length_range] at hplace
    simpa using isNumeral_digitsOf hplace
  · intro h
    obtain ⟨hdigits, rfl⟩ := h
    rw [List.getElem?_range (placeOf_lt hdigits), Option.map_some, digitsOf_placeOf hdigits]

theorem mem_readings {shape tuple : List Nat} :
    tuple ∈ readings shape ↔ List.Forall₂ (· < ·) tuple shape := by
  constructor
  · intro h
    obtain ⟨place, hplace⟩ := List.mem_iff_getElem?.1 h
    exact (getElem?_readings.1 hplace).digits_lt
  · intro h
    exact List.mem_of_getElem? (getElem?_readings.2 ⟨h, rfl⟩)

end CubeQuery
