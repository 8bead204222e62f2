import CubeQuery.Proofs.Result.Readings

/-!
# What an odometer makes

Turned until it stops, an odometer makes every tuple of indices below the sizes of its shape, each
once and in the order of the numerals they are (`Odometer.enumerates_index_space`). Its turn is the
one of a counter whose places are turned from the last one on (`turnBackwards_eq_advance`).
-/

namespace CubeQuery

/-! ## Turning places from the last one on -/

/-- Turns the last of the first `places` places of a tuple. A place that comes to its end starts
again, and the place before it turns. -/
def turnBackwards (shape : List Nat) : Nat → List Nat → Option (List Nat)
  | 0, _ => none
  | place + 1, tuple =>
    let turned := tuple.set place (tuple.getD place 0 + 1)
    if turned.getD place 0 < shape.getD place 0 then some turned
    else turnBackwards shape place (turned.set place 0)

/-- The places behind turn first; when they are through, those before turn once. -/
theorem advance_append {before after tuple last : List Nat} (h : tuple.length = before.length) :
    advance (before ++ after) (tuple ++ last) =
      match advance after last with
      | some following => some (tuple ++ following)
      | none => (advance before tuple).map (· ++ origin after) := by
  induction before generalizing tuple with
  | nil =>
      obtain rfl := List.length_eq_zero_iff.1 h
      cases hlast : advance after last <;> simp [advance, hlast]
  | cons size before ih =>
      obtain ⟨i, tuple, rfl⟩ := List.exists_cons_of_length_eq_add_one h
      have hlength : tuple.length = before.length := by simpa using h
      simp only [List.cons_append, advance, ih hlength]
      cases advance after last with
      | some following => rfl
      | none =>
          cases advance before tuple with
          | some following => rfl
          | none => by_cases hi : i + 1 < size <;> simp [hi, origin]

/-- The places behind those still to be turned have all started again. -/
theorem turnBackwards_append {before tuple : List Nat} (h : tuple.length = before.length)
    (after : List Nat) :
    turnBackwards (before ++ after) before.length (tuple ++ origin after) =
      (advance before tuple).map (· ++ origin after) := by
  induction before using List.reverseRecOn generalizing tuple after with
  | nil =>
      obtain rfl := List.length_eq_zero_iff.1 h
      rfl
  | append_singleton before size ih =>
      obtain ⟨tuple, i, rfl⟩ : ∃ front i, tuple = front ++ [i] := by
        rcases List.eq_nil_or_concat tuple with rfl | ⟨front, i, rfl⟩
        · simp at h
        · exact ⟨front, i, by simp⟩
      have hlength : tuple.length = before.length := by simpa using h
      have hdigit : (tuple ++ [i] ++ origin after).getD before.length 0 = i := by
        simp [← hlength]
      have hturned : (tuple ++ [i] ++ origin after).set before.length (i + 1) =
          tuple ++ [i + 1] ++ origin after := by
        simp [← hlength]
      have hplace : (tuple ++ [i + 1] ++ origin after).getD before.length 0 = i + 1 := by
        simp [← hlength]
      have hsize : (before ++ [size] ++ after).getD before.length 0 = size := by simp
      have hagain : (tuple ++ [i + 1] ++ origin after).set before.length 0 =
          tuple ++ origin (size :: after) := by
        simp [← hlength, origin]
      rw [List.length_append, List.length_singleton, turnBackwards]
      simp only [hdigit, hturned, hplace, hsize, hagain, advance_append hlength]
      by_cases hi : i + 1 < size
      · simp [hi, advance, origin]
      · rw [if_neg hi, List.append_assoc, List.singleton_append, ih hlength (size :: after)]
        simp [hi, advance, origin, Function.comp_def]

theorem turnBackwards_eq_advance {shape tuple : List Nat} (h : tuple.length = shape.length) :
    turnBackwards shape shape.length tuple = advance shape tuple := by
  simpa [origin] using turnBackwards_append h []

/-! ## The order of numerals -/

/-- Numerals of one shape are ordered like the numbers they stand for. -/
theorem lex_digitsOf {shape : List Nat} {m n : Nat} (hmn : m < n) (hn : n < readingCount shape) :
    List.Lex (· < ·) (digitsOf shape m) (digitsOf shape n) := by
  induction shape generalizing m n with
  | nil =>
      rw [readingCount] at hn
      omega
  | cons size shape ih =>
      have hpos : 0 < readingCount shape := by
        rw [readingCount] at hn
        exact Nat.pos_of_mul_pos_left (Nat.zero_lt_of_lt hn)
      rw [digitsOf, digitsOf]
      rcases Nat.lt_or_eq_of_le (Nat.div_le_div_right (c := readingCount shape) hmn.le) with
        hdigit | hdigit
      · exact .rel hdigit
      · have hm := Nat.div_add_mod m (readingCount shape)
        have hn' := Nat.div_add_mod n (readingCount shape)
        rw [hdigit] at hm ⊢
        exact .cons (ih (by omega) (Nat.mod_lt n hpos))

theorem pairwise_readings (shape : List Nat) : (readings shape).Pairwise (List.Lex (· < ·)) := by
  rw [readings_eq_map, List.pairwise_map]
  refine List.pairwise_lt_range.imp_of_mem ?_
  intro m n _ hn hmn
  exact lex_digitsOf hmn (List.mem_range.1 hn)

/-! ## Runs of an odometer -/

namespace Odometer

/-- The odometer makes these tuples one after another and then stops. -/
inductive Runs : Odometer → List (List Nat) → Prop where
  | stop {o : Odometer} (h : o.step = none) : Runs o []
  | turn {o following : Odometer} {tuple : List Nat} {rest : List (List Nat)}
      (h : o.step = some (tuple, following)) (hrest : Runs following rest) : Runs o (tuple :: rest)

theorem Lists.runs {o : Odometer} {tuples : List (List Nat)} (h : o.Lists tuples) : o.Runs tuples := by
  induction tuples generalizing o with
  | nil =>
      obtain ⟨shape, next⟩ := o
      cases h
      exact .stop rfl
  | cons tuple rest ih =>
      obtain ⟨shape, next⟩ := o
      cases h with
      | turn h => exact .turn rfl (ih h)

/-- An odometer stops after as many tuples as the product of the sizes. It makes exactly the tuples of
an index below each size, each once and in lexicographic order; the one at a place is the place written
in the mixed radix of the shape, its last digit the least; and each turn is made from the last place
on. -/
theorem enumerates_index_space (shape : List Nat) :
    ∃ tuples, (ofShape shape).Runs tuples ∧ tuples.length = shape.prod ∧
      (∀ tuple, tuple ∈ tuples ↔ List.Forall₂ (· < ·) tuple shape) ∧ tuples.Nodup ∧
      tuples.Pairwise (List.Lex (· < ·)) ∧
      (∀ place tuple, tuples[place]? = some tuple ↔ IsNumeral shape tuple place) ∧
      ∀ tuple ∈ tuples, advance shape tuple = turnBackwards shape shape.length tuple := by
  have hordered := pairwise_readings shape
  refine ⟨readings shape, (lists_ofShape shape).runs, ?_, fun _ => mem_readings, ?_, hordered,
    fun _ _ => getElem?_readings, ?_⟩
  · rw [length_readings, readingCount_eq_prod]
  · refine hordered.imp ?_
    rintro tuple _ hlt rfl
    exact List.lt_irrefl tuple hlt
  · intro tuple htuple
    exact (turnBackwards_eq_advance (length_of_mem_readings htuple)).symm

end Odometer

end CubeQuery
