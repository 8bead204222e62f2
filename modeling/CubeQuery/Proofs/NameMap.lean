import Mathlib.Data.List.Basic
import Mathlib.Data.List.Induction
import CubeQuery.NameMap

/-!
# Names in order

A map made of pairs has the names of the pairs, each once and in ascending order (`ascending_ofList`,
`mem_names_ofList`), and the last value of each (`find?_ofList`). The values of other names are not
touched by insertions (`find?_foldl_of_notMem`).
-/

namespace CubeQuery.NameMap

variable {α : Type}

def names (m : NameMap α) : List String := m.entries.map (·.1)

def Ascending (m : NameMap α) : Prop := m.names.Pairwise (· < ·)

theorem mem_names_insert (m : NameMap α) {name other : String} {value : α} :
    other ∈ (m.insert name value).names ↔ other = name ∨ other ∈ m.names := by
  obtain ⟨entries⟩ := m
  unfold names insert
  induction entries with
  | nil => simp [insertInto]
  | cons e rest ih =>
      obtain ⟨n, v⟩ := e
      unfold insertInto
      by_cases hname : name = n
      · subst hname
        simp
      · rw [if_neg hname]
        by_cases hlt : name < n
        · rw [if_pos hlt]
          simp
        · rw [if_neg hlt, List.map_cons, List.mem_cons, ih, List.map_cons, List.mem_cons]
          exact or_left_comm

theorem lt_of_not_lt {a b : String} (hlt : ¬ a < b) (hne : a ≠ b) : b < a := by
  by_contra h
  exact hne (String.le_antisymm h hlt)

theorem Ascending.insert {m : NameMap α} (h : m.Ascending) (name : String) (value : α) :
    (m.insert name value).Ascending := by
  obtain ⟨entries⟩ := m
  induction entries with
  | nil => simp [Ascending, names, NameMap.insert, insertInto]
  | cons e rest ih =>
      obtain ⟨n, v⟩ := e
      have hcons : (∀ other ∈ (NameMap.mk rest).names, n < other) ∧ (NameMap.mk rest).Ascending :=
        List.pairwise_cons.1 h
      unfold Ascending names NameMap.insert insertInto
      by_cases hname : name = n
      · subst hname
        rw [if_pos rfl]
        exact h
      · rw [if_neg hname]
        by_cases hlt : name < n
        · rw [if_pos hlt]
          apply List.pairwise_cons.2
          refine ⟨fun other hother => ?_, h⟩
          obtain rfl | hrest := List.mem_cons.1 hother
          · exact hlt
          · exact String.lt_trans hlt (hcons.1 other hrest)
        · rw [if_neg hlt]
          apply List.pairwise_cons.2
          refine ⟨fun other hother => ?_, ih hcons.2⟩
          have hmem : other = name ∨ other ∈ (NameMap.mk rest).names :=
            (mem_names_insert ⟨rest⟩).1 hother
          rcases hmem with rfl | hrest
          · exact lt_of_not_lt hlt hname
          · exact hcons.1 other hrest

theorem ascending_foldl_insert {m : NameMap α} (h : m.Ascending) (pairs : List (String × α)) :
    (pairs.foldl (fun m (name, value) => m.insert name value) m).Ascending := by
  induction pairs generalizing m with
  | nil => exact h
  | cons pair rest ih => exact ih (h.insert pair.1 pair.2)

theorem ascending_ofList (pairs : List (String × α)) : (ofList pairs).Ascending :=
  ascending_foldl_insert (show (empty : NameMap α).Ascending from List.Pairwise.nil) pairs

theorem mem_names_ofList {pairs : List (String × α)} {name : String} :
    name ∈ (ofList pairs).names ↔ name ∈ pairs.map (·.1) := by
  suffices h : ∀ m : NameMap α,
      name ∈ (pairs.foldl (fun m (name, value) => m.insert name value) m).names ↔
        name ∈ pairs.map (·.1) ∨ name ∈ m.names by
    have hempty : name ∉ (empty : NameMap α).names := List.not_mem_nil
    exact (h empty).trans (or_iff_left hempty)
  induction pairs with
  | nil => simp
  | cons pair rest ih =>
      intro m
      rw [List.foldl_cons, ih, mem_names_insert, List.map_cons, List.mem_cons, or_left_comm, or_assoc]

/-- No name occurs twice. -/
theorem Ascending.nodup {m : NameMap α} (h : m.Ascending) : m.names.Nodup := by
  apply List.Pairwise.imp _ h
  intro a b hlt heq
  rw [heq] at hlt
  exact String.lt_irrefl b hlt

/-! ## Pairs with one name -/

theorem ofList_concat (pairs : List (String × α)) (name : String) (value : α) :
    ofList (pairs ++ [(name, value)]) = (ofList pairs).insert name value := by
  rw [ofList, List.foldl_append]
  rfl

/-- Of the pairs with a name the last one is found. -/
theorem find?_ofList (pairs : List (String × α)) (name : String) :
    (ofList pairs).find? name = (pairs.reverse.find? (·.1 == name)).map (·.2) := by
  induction pairs using List.reverseRecOn with
  | nil => rfl
  | append_singleton pairs pair ih =>
      obtain ⟨first, value⟩ := pair
      rw [ofList_concat, find?_insert, ih, List.reverse_append, List.reverse_singleton,
        List.singleton_append]
      by_cases hname : name = first
      · rw [if_pos hname, List.find?_cons_of_pos (by simpa using hname.symm)]
        rfl
      · rw [if_neg hname, List.find?_cons_of_neg (by simpa using Ne.symm hname)]

/-- Every pair is found again exactly if pairs with one name have one value. -/
theorem find?_ofList_eq_some_iff {pairs : List (String × α)} :
    (∀ pair ∈ pairs, (ofList pairs).find? pair.1 = some pair.2) ↔
      ∀ pair ∈ pairs, ∀ other ∈ pairs, pair.1 = other.1 → pair.2 = other.2 := by
  constructor
  · intro h pair hpair other hother hname
    have hfound := h pair hpair
    rw [hname, h other hother, Option.some.injEq] at hfound
    exact hfound.symm
  · intro h pair hpair
    obtain ⟨found, hfound⟩ : ∃ found, pairs.reverse.find? (·.1 == pair.1) = some found := by
      rw [← Option.isSome_iff_exists, List.find?_isSome]
      exact ⟨pair, List.mem_reverse.2 hpair, beq_self_eq_true _⟩
    have hmem := List.mem_reverse.1 (List.mem_of_find?_eq_some hfound)
    have hname : found.1 = pair.1 := by simpa using List.find?_some hfound
    rw [find?_ofList, hfound, Option.map_some, h found hmem pair hpair hname]

/-! ## Insertions in turn -/

/-- If each turn for a name puts one value there and other turns leave it alone, that value is found. -/
theorem find?_foldl {step : NameMap α → String → NameMap α} {name : String} {value : α}
    (hself : ∀ m, (step m name).find? name = some value)
    (hother : ∀ m other, name ≠ other → (step m other).find? name = m.find? name)
    {names : List String} (m : NameMap α) (h : name ∈ names ∨ m.find? name = some value) :
    (names.foldl step m).find? name = some value := by
  induction names generalizing m with
  | nil => simpa using h
  | cons first rest ih =>
      rw [List.foldl_cons]
      apply ih
      by_cases hfirst : name = first
      · exact .inr (by rw [← hfirst, hself])
      · rw [hother m first hfirst]
        simpa [hfirst] using h

/-- If turns for other names leave a value alone, it is not touched. -/
theorem find?_foldl_of_notMem {step : NameMap α → String → NameMap α} {name : String}
    (hother : ∀ m other, name ≠ other → (step m other).find? name = m.find? name)
    {names : List String} (h : name ∉ names) (m : NameMap α) :
    (names.foldl step m).find? name = m.find? name := by
  induction names generalizing m with
  | nil => rfl
  | cons first rest ih =>
      have hne : name ≠ first := fun heq => h (heq ▸ List.mem_cons_self)
      have hrest : name ∉ rest := fun hmem => h (List.mem_cons_of_mem first hmem)
      rw [List.foldl_cons, ih hrest, hother m first hne]

end CubeQuery.NameMap
