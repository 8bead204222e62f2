/-!
# Index tuples

All tuples of indices below given sizes, in the order of an odometer: the last place turns fastest. An
odometer makes one tuple after another and holds only the next; what it makes is listed by `readings`
(`Odometer.lists_ofShape`).
-/

namespace CubeQuery

/-- The tuples of indices below the sizes of a shape, the last index varying fastest. -/
def readings : List Nat → List (List Nat)
  | [] => [[]]
  | size :: rest => (List.range size).flatMap fun i => (readings rest).map (i :: ·)

def readingCount : List Nat → Nat
  | [] => 1
  | size :: rest => size * readingCount rest

def origin (shape : List Nat) : List Nat := shape.map fun _ => 0

/-- The tuple after a given one: the last place that is not at its end turns, and the places behind it
start again. -/
def advance : List Nat → List Nat → Option (List Nat)
  | size :: shape, i :: rest =>
    match advance shape rest with
    | some following => some (i :: following)
    | none => if i + 1 < size then some ((i + 1) :: origin shape) else none
  | _, _ => none

structure Odometer where
  shape : List Nat
  next : Option (List Nat)

namespace Odometer

/-- Before the first tuple; there is none where a size is zero. -/
def ofShape (shape : List Nat) : Odometer :=
  ⟨shape, if shape.contains 0 then none else some (origin shape)⟩

def step (o : Odometer) : Option (List Nat × Odometer) :=
  o.next.map fun current => (current, ⟨o.shape, advance o.shape current⟩)

def skip : Nat → Odometer → Odometer
  | 0, o => o
  | n + 1, o =>
    match o.step with
    | some (_, o) => skip n o
    | none => o

/-- What `f` makes of the next `n` tuples at most, behind what was found before, last first. -/
def collect {α : Type} (f : List Nat → Option α) : Nat → List α → Odometer → List α
  | 0, found, _ => found.reverse
  | n + 1, found, o =>
    match o.step with
    | some (tuple, o) => collect f n ((f tuple).toList ++ found) o
    | none => found.reverse

end Odometer

/-! ## The tuples that an odometer makes -/

theorem length_of_mem_readings {shape r : List Nat} (h : r ∈ readings shape) :
    r.length = shape.length := by
  induction shape generalizing r with
  | nil => simp_all [readings]
  | cons size rest ih =>
    simp only [readings, List.mem_flatMap, List.mem_map] at h
    obtain ⟨i, _, t, ht, rfl⟩ := h
    simp [ih ht]

theorem length_readings (shape : List Nat) : (readings shape).length = readingCount shape := by
  induction shape with
  | nil => rfl
  | cons size rest ih => simp [readings, readingCount, List.length_flatMap, ih, List.map_const']

theorem readings_eq_nil {shape : List Nat} (h : 0 ∈ shape) : readings shape = [] := by
  induction shape with
  | nil => cases h
  | cons size rest ih =>
    rcases List.mem_cons.1 h with rfl | h
    · rfl
    · simp [readings, ih h]

/-- The tuples from a first one on, each made from the one before. -/
inductive Trace (turn : List Nat → Option (List Nat)) : Option (List Nat) → List (List Nat) → Prop where
  | stop : Trace turn none []
  | turn {tuple : List Nat} {rest : List (List Nat)} (h : Trace turn (turn tuple) rest) :
      Trace turn (some tuple) (tuple :: rest)

/-- While the places behind it run, a place stands still; then it turns. -/
theorem Trace.wheel {size i : Nat} {shape : List Nat} {first : Option (List Nat)}
    {tuples rest : List (List Nat)} (h : Trace (advance shape) first tuples)
    (hrest : Trace (advance (size :: shape))
      (if i + 1 < size then some ((i + 1) :: origin shape) else none) rest) :
    Trace (advance (size :: shape))
      (match first with
        | some following => some (i :: following)
        | none => if i + 1 < size then some ((i + 1) :: origin shape) else none)
      (tuples.map (i :: ·) ++ rest) := by
  induction h with
  | stop => exact hrest
  | turn h ih => exact .turn ih

theorem trace_readings {shape : List Nat} (h : 0 ∉ shape) :
    Trace (advance shape) (some (origin shape)) (readings shape) := by
  induction shape with
  | nil => exact .turn .stop
  | cons size shape ih =>
    obtain ⟨hsize, hshape⟩ : size ≠ 0 ∧ 0 ∉ shape := by
      simpa [eq_comm] using h
    have hplaces : ∀ n i, i + n = size → Trace (advance (size :: shape))
        (if i < size then some (i :: origin shape) else none)
        ((List.range' i n).flatMap fun i => (readings shape).map (i :: ·)) := by
      intro n
      induction n with
      | zero =>
        rintro i rfl
        simpa using Trace.stop
      | succ n ihn =>
        intro i hi
        have hrest := ihn (i + 1) (by omega)
        rw [if_pos (by omega), List.range'_succ, List.flatMap_cons]
        exact (ih hshape).wheel hrest
    have hall := hplaces size 0 (by omega)
    rw [if_pos (by omega)] at hall
    rw [readings, List.range_eq_range']
    exact hall

namespace Odometer

def Lists (o : Odometer) (tuples : List (List Nat)) : Prop :=
  Trace (advance o.shape) o.next tuples

theorem lists_ofShape (shape : List Nat) : (ofShape shape).Lists (readings shape) := by
  unfold Lists ofShape
  split
  · rename_i h
    rw [readings_eq_nil (by simpa using h)]
    exact .stop
  · rename_i h
    exact trace_readings (by simpa using h)

theorem Lists.skip {o : Odometer} {tuples : List (List Nat)} (h : o.Lists tuples) (n : Nat) :
    (o.skip n).Lists (tuples.drop n) := by
  induction n generalizing o tuples with
  | zero => exact h
  | succ n ih =>
    obtain ⟨shape, next⟩ := o
    cases h with
    | stop => exact Trace.stop
    | turn h => exact ih h

theorem Lists.collect {o : Odometer} {tuples : List (List Nat)} (h : o.Lists tuples) {α : Type}
    (f : List Nat → Option α) (n : Nat) (found : List α) :
    o.collect f n found = found.reverse ++ (tuples.take n).filterMap f := by
  induction n generalizing o tuples found with
  | zero => simp [Odometer.collect]
  | succ n ih =>
    obtain ⟨shape, next⟩ := o
    cases h with
    | stop => simp [Odometer.collect, step]
    | @turn tuple rest h =>
      have htail : Odometer.Lists ⟨shape, advance shape tuple⟩ rest := h
      simp only [Odometer.collect, step, Option.map_some, ih htail]
      cases hf : f tuple <;> simp [hf]

end Odometer

end CubeQuery
